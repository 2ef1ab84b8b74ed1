import Mathlib

/-! Functions that fail at the first check that does not pass: what a success of such a function
says about its checks, and about the steps that follow them. -/

namespace Checks

variable {ε α β : Type}

def rejectIf (bad : Prop) [Decidable bad] (e : ε) : Except ε Unit :=
  if bad then .error e else .ok ()

def okOr (x : Option α) (e : ε) : Except ε α :=
  match x with
  | some a => .ok a
  | none => .error e

@[simp] theorem rejectIf_eq_ok {bad : Prop} [Decidable bad] {e : ε} {u : Unit} :
    rejectIf bad e = .ok u ↔ ¬bad := by
  by_cases h : bad <;> simp [rejectIf, h]

@[simp] theorem okOr_eq_ok {x : Option α} {e : ε} {a : α} : okOr x e = .ok a ↔ x = some a := by
  cases x <;> simp [okOr]

@[simp] theorem mapError_eq_ok {ε' : Type} {x : Except ε α} {f : ε → ε'} {a : α} :
    x.mapError f = .ok a ↔ x = .ok a := by
  cases x <;> simp [Except.mapError]

/-- A computation succeeds when its first step does, and the rest succeeds from its result. -/
theorem bind_ok {x : Except ε α} {f : α → Except ε β} {b : β} :
    (do let a ← x; f a) = .ok b ↔ ∃ a, x = .ok a ∧ f a = .ok b := by
  rcases x with e | a
  · simp [Bind.bind, Except.bind]
  · exact ⟨fun h => ⟨a, rfl, h⟩, fun ⟨_, ha, hb⟩ => by cases ha; exact hb⟩

/-- It fails at its first step, or after it. -/
theorem bind_error {x : Except ε α} {f : α → Except ε β} {e : ε} :
    (do let a ← x; f a) = .error e ↔ x = .error e ∨ ∃ a, x = .ok a ∧ f a = .error e := by
  rcases x with e' | a
  · simp [Bind.bind, Except.bind]
  · simp only [reduceCtorEq, Except.ok.injEq, exists_eq_left', false_or]
    rfl

@[simp] theorem rejectIf_eq_error {bad : Prop} [Decidable bad] {e e' : ε} :
    rejectIf bad e = .error e' ↔ bad ∧ e = e' := by
  by_cases h : bad <;> simp [rejectIf, h]

@[simp] theorem okOr_eq_error {x : Option α} {e e' : ε} :
    okOr x e = .error e' ↔ x = none ∧ e = e' := by
  cases x <;> simp [okOr]

theorem bind_of_ok {x : Except ε α} {a : α} (h : x = .ok a) (f : α → Except ε β) :
    (do let y ← x; f y) = f a := by
  rw [h]
  rfl

theorem rejectIf_bind_ok {bad : Prop} [Decidable bad] {e : ε} {f : Unit → Except ε α} {a : α} :
    (do let u ← rejectIf bad e; f u) = .ok a ↔ ¬bad ∧ f () = .ok a := by
  by_cases h : bad <;> simp [rejectIf, h, Bind.bind, Except.bind]

theorem rejectIf_bind_of_not {bad : Prop} [Decidable bad] {e : ε} {f : Unit → Except ε α}
    (h : ¬bad) : (do let u ← rejectIf bad e; f u) = f () := by
  simp [rejectIf, h, Bind.bind, Except.bind]

theorem rejectIf_bind_of {bad : Prop} [Decidable bad] {e : ε} {f : Unit → Except ε α}
    (h : bad) : (do let u ← rejectIf bad e; f u) = .error e := by
  simp [rejectIf, h, Bind.bind, Except.bind]

/-- A checked loop over a list succeeds when every element does. -/
theorem mapM_ok {f : α → Except ε β} {as : List α} {bs : List β} :
    as.mapM f = .ok bs ↔ List.Forall₂ (fun a b => f a = .ok b) as bs := by
  induction as generalizing bs with
  | nil =>
    rw [List.mapM_nil, List.forall₂_nil_left_iff]
    exact ⟨fun h => (Except.ok.inj h).symm, fun h => by rw [h]; rfl⟩
  | cons a as ih =>
    rw [List.mapM_cons, bind_ok, List.forall₂_cons_left_iff]
    simp only [bind_ok, ih]
    constructor
    · rintro ⟨b, hb, bs', hbs', heq⟩
      exact ⟨b, bs', hb, hbs', (Except.ok.inj heq).symm⟩
    · rintro ⟨b, bs', hb, hbs', rfl⟩
      exact ⟨b, hb, bs', hbs', rfl⟩

theorem mem_of_mapM_ok {f : α → Except ε β} {as : List α} {bs : List β} (h : as.mapM f = .ok bs)
    {a : α} (ha : a ∈ as) : ∃ b ∈ bs, f a = .ok b := by
  rw [mapM_ok, List.forall₂_iff_get] at h
  obtain ⟨i, hi, rfl⟩ := List.getElem_of_mem ha
  have hi' : i < bs.length := h.1 ▸ hi
  exact ⟨bs[i], List.getElem_mem hi', h.2 i hi hi'⟩

theorem eq_ok_of_toOption {x : Except ε α} {a : α} (h : x.toOption = some a) : x = .ok a := by
  cases x with
  | error e => cases h
  | ok a => rw [Option.some.inj h]

theorem eq_ok_of_isSome {x : Except ε α} (default : α) (h : x.toOption.isSome) :
    x = .ok (x.toOption.getD default) := by
  obtain ⟨a, ha⟩ := Option.isSome_iff_exists.mp h
  rw [ha]
  exact eq_ok_of_toOption ha

def errorOf : Except ε α → Option ε
  | .error e => some e
  | .ok _ => none

theorem eq_error_of_errorOf {x : Except ε α} {e : ε} (h : errorOf x = some e) : x = .error e := by
  cases x with
  | error e => rw [Option.some.inj h]
  | ok a => cases h

/-! ### Two runs side by side -/

/-- Both fail with the same error, or both succeed, with related results. -/
inductive Alike (R : α → β → Prop) : Except ε α → Except ε β → Prop
  | error (e : ε) : Alike R (.error e) (.error e)
  | ok {a : α} {b : β} (related : R a b) : Alike R (.ok a) (.ok b)

namespace Alike

variable {γ : Type} {R : α → β → Prop}

theorem bind {x : Except ε γ} {f : γ → Except ε α} {g : γ → Except ε β}
    (h : ∀ c, x = .ok c → Alike R (f c) (g c)) :
    Alike R (do let c ← x; f c) (do let c ← x; g c) := by
  cases x with
  | error e => exact .error e
  | ok c => exact h c rfl

/-- A check that comes out the same on both sides. -/
theorem bind_congr {x y : Except ε γ} {f : γ → Except ε α} {g : γ → Except ε β} (hxy : x = y)
    (h : ∀ c, x = .ok c → Alike R (f c) (g c)) :
    Alike R (do let c ← x; f c) (do let c ← y; g c) :=
  hxy ▸ bind h

theorem ok_left {x : Except ε α} {y : Except ε β} (h : Alike R x y) {a : α} (hx : x = .ok a) :
    ∃ b, y = .ok b ∧ R a b := by
  cases h with
  | error e => cases hx
  | ok related =>
    cases hx
    exact ⟨_, rfl, related⟩

end Alike

theorem rejectIf_congr {bad bad' : Prop} [Decidable bad] [Decidable bad'] (h : bad ↔ bad') (e : ε) :
    rejectIf bad e = rejectIf bad' e :=
  if_congr h rfl rfl

end Checks
