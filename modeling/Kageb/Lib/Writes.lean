import Kageb.Lib.History

/-! What a call can write, whatever it is told: if no content that a call hands to the file system
can be a bad one, then no run of any number of calls leaves a bad one behind. -/

namespace Files

variable {F L B : Type}

/-- What the request writes, if anything, has `P`. -/
def Request.Puts (P : F → List B → Prop) {β : Type} : Request F L B β → Prop
  | .replace file content => P file content
  | .create file => P file []
  | .append file unit => ∀ content, P file (content ++ [unit])
  | .acquire _ => True
  | .release _ => True
  | .present _ => True
  | .read _ => True
  | .sync => True

namespace Call

variable {α γ ε ε' : Type} {P : F → List B → Prop}

/-- Whatever the call is told, what it writes has `P`. -/
def Puts (P : F → List B → Prop) : Call F L B α → Prop
  | .done _ => True
  | .request r next => r.Puts P ∧ ∀ answer, (next answer).Puts P

theorem puts_bind {c : Call F L B α} {f : α → Call F L B γ} :
    (c.bind f).Puts P ↔ c.Puts P ∧ ∀ a, c.Yields a → (f a).Puts P := by
  induction c with
  | done a =>
    refine ⟨fun h => ⟨trivial, ?_⟩, fun h => h.2 a (.done a)⟩
    rintro _ ⟨⟩
    exact h
  | request r next ih =>
    constructor
    · rintro ⟨hr, hnext⟩
      refine ⟨⟨hr, fun answer => ((ih answer).mp (hnext answer)).1⟩, ?_⟩
      rintro a (_ | ⟨answer, ha⟩)
      exact ((ih answer).mp (hnext answer)).2 a ha
    · rintro ⟨⟨hr, hnext⟩, hf⟩
      exact ⟨hr, fun answer => (ih answer).mpr ⟨hnext answer, fun a ha => hf a (.request answer ha)⟩⟩

theorem Puts.adapt {x : ExceptT ε (Call F L B) α} (hx : x.run.Puts P) (f : ε → ε') :
    (ExceptT.adapt f x).run.Puts P := by
  have hrun : (ExceptT.adapt f x).run = x.run.bind fun r => .done (r.mapError f) := rfl
  rw [hrun, puts_bind]
  exact ⟨hx, fun _ _ => trivial⟩

theorem Puts.inner {c : Call F L B α} (hc : c.Puts P) :
    (Call.inner c : ExceptT ε (Call F L B) α).run.Puts P :=
  puts_bind.mpr ⟨hc, fun _ _ => trivial⟩

theorem Puts.guarded {lock : L} {refused : Acquired → Option ε} {body : ExceptT ε (Call F L B) α}
    (h : body.run.Puts P) : (Call.guarded lock refused body).run.Puts P := by
  refine ⟨trivial, fun acquired => ?_⟩
  cases hrefused : refused acquired with
  | some e =>
    simp only [hrefused]
    trivial
  | none =>
    simp only [hrefused]
    exact puts_bind.mpr ⟨h, fun _ _ => ⟨trivial, fun _ => trivial⟩⟩

end Call

/-! ### Runs -/

section Runs

variable [DecidableEq F] [DecidableEq L] {M : Machine F L B} {P : F → List B → Prop}

theorem Answers.puts {i : Nat} {op : M.Op} {held held' : Finset L} {w w' : World M} {β : Type}
    {r : Request F L B β} {a : β} (h : Answers i op held w r a held' w') (hr : r.Puts P) :
    w' = w ∨ ∃ file content, w' = w.write i op file content ∧ P file content := by
  cases r with
  | acquire lock => cases a <;> simp_all [Answers]
  | release lock => exact Or.inl h.2
  | present file => exact Or.inl h.2.2
  | read file => cases a <;> simp_all [Answers]
  | replace file content =>
    cases a with
    | ok => exact Or.inr ⟨file, content, h.2, hr⟩
    | error kind => exact Or.inl h.2
  | create file =>
    cases a with
    | ok => exact Or.inr ⟨file, [], h.2.2, hr⟩
    | error kind => exact Or.inl h.2
  | append file unit =>
    cases a with
    | ok =>
      obtain ⟨-, rfl⟩ := h
      cases w.files file with
      | none => exact Or.inl rfl
      | some content => exact Or.inr ⟨file, content ++ [unit], rfl, hr content⟩
    | error kind => exact Or.inl h.2
  | sync => exact Or.inl h.2

/-- What was written has `P`, and what will be written has it too. -/
structure Written (P : F → List B → Prop) (files : F → Option (List B)) (s : State M) : Prop where
  running : ∀ i op c, s.calls i = some ⟨op, c⟩ → c.Puts P
  wrote : ∀ i op file old new, .wrote i op file old new ∈ s.world.log → P file new
  holds : ∀ file content, s.world.files file = some content →
    files file = some content ∨ P file content

variable {files : F → Option (List B)}

omit [DecidableEq F] [DecidableEq L] in
theorem written_initial : Written P files (State.initial L files : State M) where
  running := by simp [State.initial]
  wrote := by simp [State.initial]
  holds _ _ h := Or.inl h

omit [DecidableEq F] [DecidableEq L] in
theorem Written.set {s : State M} (h : Written P files s) {i : Nat} {w' : World M}
    {held' : Finset L} {call : Option (Σ op : M.Op, Call F L B (M.Result op))}
    (hcall : ∀ op c, call = some ⟨op, c⟩ → c.Puts P)
    (hwrote : ∀ j op file old new, .wrote j op file old new ∈ w'.log →
      .wrote j op file old new ∈ s.world.log ∨ P file new)
    (hholds : ∀ file content, w'.files file = some content →
      s.world.files file = some content ∨ P file content) : Written P files (s.set i w' call held') where
  running j op c hc := by
    by_cases hj : j = i
    · subst hj
      simp only [State.set, Function.update_self] at hc
      exact hcall op c hc
    · simp only [State.set, Function.update_of_ne hj] at hc
      exact h.running j op c hc
  wrote j op file old new hmem :=
    (hwrote j op file old new hmem).elim (h.wrote j op file old new) id
  holds file content hcontent := (hholds file content hcontent).elim (h.holds file content) Or.inr

theorem Written.step (hcode : ∀ op, (M.code op).Puts P) {s s' : State M} (h : Written P files s)
    (hstep : Step s s') : Written P files s' := by
  cases hstep with
  | start op =>
    refine h.set ?_ (fun j op' file old new hmem => Or.inl ?_) fun _ _ => Or.inl
    · rintro op' c ⟨⟩
      exact hcode op
    · exact (List.mem_cons.mp hmem).resolve_left nofun
  | @answer i op _ r next a held w hcall hanswer _ =>
    have hputs := h.running _ _ _ hcall
    have hnext : ∀ op' c, some (⟨op, next a⟩ : Σ op : M.Op, Call F L B (M.Result op)) =
        some ⟨op', c⟩ → c.Puts P := by
      rintro op' c ⟨⟩
      exact hputs.2 a
    rcases hanswer.puts hputs.1 with rfl | ⟨file, content, rfl, hP⟩
    · exact h.set hnext (fun _ _ _ _ _ => Or.inl) fun _ _ => Or.inl
    · refine h.set hnext (fun j op' file' old new hmem => ?_) fun file' content' hcontent => ?_
      · rcases List.mem_cons.mp hmem with heq | hmem
        · cases heq
          exact Or.inr hP
        · exact Or.inl hmem
      · by_cases hfile : file' = file
        · subst hfile
          simp only [World.write, Function.update_self, Option.some.injEq] at hcontent
          exact Or.inr (hcontent ▸ hP)
        · simp only [World.write, Function.update_of_ne hfile] at hcontent
          exact Or.inl hcontent
  | finish hcall =>
    refine h.set nofun (fun j op' file old new hmem => Or.inl ?_) fun _ _ => Or.inl
    exact (List.mem_cons.mp hmem).resolve_left nofun
  | crash hcall => exact h.set nofun (fun _ _ _ _ _ => Or.inl) fun _ _ => Or.inl
  | @remove file hremovable =>
    refine ⟨h.running, fun j op' file old new hmem => h.wrote j op' file old new ?_,
      fun file' content hcontent => h.holds file' content ?_⟩
    · exact (List.mem_cons.mp hmem).resolve_left nofun
    · by_cases hfile : file' = file
      · subst hfile
        simp [World.remove] at hcontent
      · simpa only [World.remove, Function.update_of_ne hfile] using hcontent

/-- If no call can write anything else, what a run has written has `P`. -/
theorem Reaches.written (hcode : ∀ op, (M.code op).Puts P) {s : State M}
    (h : Reaches (State.initial L files) s) : Written P files s := by
  induction h with
  | refl => exact written_initial
  | tail _ hstep ih => exact ih.step hcode hstep

end Runs

end Files
