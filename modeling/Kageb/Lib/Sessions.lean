import Kageb.Lib.History
import Kageb.Lib.Solo

/-! Processes that make several calls, each after the one before has returned. Every run of such
processes, whatever their interleaving and wherever they stop, is a run of their calls: what is
proved of the calls holds of the processes. -/

namespace Files

variable {F L B : Type}

/-- What a process does that makes calls of `M`. -/
inductive Session (M : Machine F L B) (R : Type) : Type where
  | done (r : R)
  | call (op : M.Op) (next : M.Result op → Session M R)

namespace Session

variable {M : Machine F L B} {R R' ε : Type}

def bind (S : Session M R) (f : R → Session M R') : Session M R' :=
  match S with
  | done r => f r
  | call op next => call op fun result => (next result).bind f

instance instMonad : Monad (Session M) where
  pure := done
  bind := bind

def lift (x : Except ε R) : ExceptT ε (Session M) R := ExceptT.mk (done x)

def make (op : M.Op) : Session M (M.Result op) := call op done

/-- The requests of all calls. -/
def code : Session M R → Call F L B R
  | done r => .done r
  | call op next => (M.code op).bind fun result => (next result).code

/-- The process gets this far if its calls return what the log says. -/
inductive Follows (log : List (Event M)) (S : Session M R) : Session M R → Prop
  | refl : Follows log S S
  | returned {i : Nat} {op : M.Op} {result : M.Result op} {next : M.Result op → Session M R} :
      Follows log S (call op next) → .returned i op result ∈ log → Follows log S (next result)

theorem Follows.suffix {log log' : List (Event M)} {S S' : Session M R} (h : Follows log S S')
    (hsuffix : log <:+ log') : Follows log' S S' := by
  induction h with
  | refl => exact .refl
  | returned _ hmem ih => exact .returned ih (hsuffix.mem hmem)

/-- What the process returns if its calls return what the log says. -/
def Yields (log : List (Event M)) : Session M R → R → Prop
  | done a, r => a = r
  | call op next, r => ∃ i result, .returned i op result ∈ log ∧ (next result).Yields log r

section Yields

variable {log : List (Event M)}

theorem Follows.yields {S S' : Session M R} {r : R} (h : Follows log S S')
    (hr : S'.Yields log r) : S.Yields log r := by
  induction h with
  | refl => exact hr
  | returned _ hmem ih => exact ih ⟨_, _, hmem, hr⟩

theorem yields_bind {S : Session M R} {f : R → Session M R'} {r : R'} :
    (S.bind f).Yields log r ↔ ∃ a, S.Yields log a ∧ (f a).Yields log r := by
  induction S with
  | done a => simp [bind, Yields]
  | call op next ih =>
    simp only [bind, Yields, ih]
    constructor
    · rintro ⟨i, result, hmem, a, ha, hr⟩
      exact ⟨a, ⟨i, result, hmem, ha⟩, hr⟩
    · rintro ⟨a, ⟨i, result, hmem, ha⟩, hr⟩
      exact ⟨i, result, hmem, a, ha, hr⟩

theorem yields_run_bind {x : ExceptT ε (Session M) R} {f : R → ExceptT ε (Session M) R'} {r : R'} :
    (x >>= f).run.Yields log (.ok r) ↔
      ∃ a, x.run.Yields log (.ok a) ∧ (f a).run.Yields log (.ok r) := by
  have hrun : (x >>= f).run = x.run.bind (ExceptT.bindCont f) := rfl
  rw [hrun, yields_bind]
  constructor
  · rintro ⟨a, ha, hr⟩
    cases a with
    | ok a => exact ⟨a, ha, hr⟩
    | error e => cases hr
  · rintro ⟨a, ha, hr⟩
    exact ⟨.ok a, ha, hr⟩

@[simp] theorem yields_lift {x : Except ε R} {r : R} :
    (lift x : ExceptT ε (Session M) R).run.Yields log (.ok r) ↔ x = .ok r := Iff.rfl

@[simp] theorem yields_pure {a r : R} :
    (pure a : ExceptT ε (Session M) R).run.Yields log (.ok r) ↔ a = r := by
  have hrun : (pure a : ExceptT ε (Session M) R).run = done (.ok a) := rfl
  rw [hrun, Yields, Except.ok.injEq]

theorem yields_adapt {ε' : Type} {x : ExceptT ε (Session M) R} {f : ε → ε'} {r : R} :
    (ExceptT.adapt f x).run.Yields log (.ok r) ↔ x.run.Yields log (.ok r) := by
  have hrun : (ExceptT.adapt f x).run = x.run.bind fun a => done (a.mapError f) := rfl
  rw [hrun, yields_bind]
  constructor
  · rintro ⟨a, ha, hr⟩
    cases a with
    | ok a =>
      cases hr
      exact ha
    | error e => cases hr
  · exact fun h => ⟨.ok r, h, rfl⟩

theorem yields_make {op : M.Op} {result : M.Result op} :
    (make op).Yields log result ↔ ∃ i, .returned i op result ∈ log := by
  constructor
  · rintro ⟨i, _, hmem, rfl⟩
    exact ⟨i, hmem⟩
  · rintro ⟨i, hmem⟩
    exact ⟨i, result, hmem, rfl⟩

end Yields

end Session

/-- Processes whose programs make calls of `M`. -/
def Machine.hosting (M : Machine F L B) {P : Type} {R : P → Type}
    (program : (p : P) → Session M (R p)) : Machine F L B where
  Op := P
  Result := R
  code p := (program p).code
  removable := M.removable

open Session

variable {M : Machine F L B}

/-- The call that a process waits for stands at its next request. A process that waits for none has
made all its calls. -/
def Waits {R : Type} (t : State M) (S : Session M R) : Option Nat → Call F L B R → Prop
  | none, c => ∃ r, c = .done r ∧ Follows t.world.log S (.done r)
  | some j, c => ∃ (op : M.Op) (next : M.Result op → Session M R) (β : Type) (r : Request F L B β)
      (k : β → Call F L B (M.Result op)),
      c = .request r (fun a => (k a).bind fun result => (next result).code) ∧
      t.calls j = some ⟨op, .request r k⟩ ∧ Follows t.world.log S (.call op next)

theorem Waits.mono {R : Type} {t t' : State M} {S : Session M R} {waits : Option Nat}
    {c : Call F L B R} (h : Waits t S waits c) (hlog : t.world.log <:+ t'.world.log)
    (hcalls : ∀ j, waits = some j → t'.calls j = t.calls j) : Waits t' S waits c := by
  cases waits with
  | none =>
    obtain ⟨r, rfl, hfollows⟩ := h
    exact ⟨r, rfl, hfollows.suffix hlog⟩
  | some j =>
    obtain ⟨op, next, β, r, k, rfl, hcall, hfollows⟩ := h
    exact ⟨op, next, β, r, k, rfl, (hcalls j rfl).trans hcall, hfollows.suffix hlog⟩

variable [DecidableEq F] [DecidableEq L]

/-- The same answer can be given to a call that sees the same files and holds fewer locks. -/
theorem Answers.mirror {N : Machine F L B} {i j : Nat} {p : N.Op} {op : M.Op}
    {held held' locks : Finset L} {v v' : World N} {w : World M} {β : Type} {r : Request F L B β}
    {a : β} (h : Answers i p held v r a held' v') (hlocks : locks ⊆ held)
    (hfiles : w.files = v.files) :
    ∃ locks' w', Answers j op locks w r a locks' w' ∧ locks' ⊆ held' ∧ w'.files = v'.files := by
  cases r with
  | acquire lock =>
    cases a with
    | locked =>
      obtain ⟨hfresh, rfl, rfl⟩ := h
      exact ⟨_, w, ⟨fun hmem => hfresh (hlocks hmem), rfl, rfl⟩,
        Finset.insert_subset_insert lock hlocks, hfiles⟩
    | busy =>
      obtain ⟨rfl, rfl⟩ := h
      exact ⟨locks, w, ⟨rfl, rfl⟩, hlocks, hfiles⟩
    | failed kind =>
      obtain ⟨rfl, rfl⟩ := h
      exact ⟨locks, w, ⟨rfl, rfl⟩, hlocks, hfiles⟩
  | release lock =>
    obtain ⟨rfl, rfl⟩ := h
    exact ⟨_, w, ⟨rfl, rfl⟩, Finset.erase_subset_erase lock hlocks, hfiles⟩
  | present file =>
    obtain ⟨rfl, rfl, rfl⟩ := h
    exact ⟨locks, w, ⟨by rw [hfiles], rfl, rfl⟩, hlocks, hfiles⟩
  | read file =>
    cases a with
    | ok content =>
      obtain ⟨hcontent, rfl, rfl⟩ := h
      exact ⟨locks, w, ⟨by rw [hfiles, hcontent], rfl, rfl⟩, hlocks, hfiles⟩
    | error kind =>
      obtain ⟨rfl, rfl⟩ := h
      exact ⟨locks, w, ⟨rfl, rfl⟩, hlocks, hfiles⟩
  | replace file content =>
    cases a with
    | ok =>
      obtain ⟨rfl, rfl⟩ := h
      exact ⟨locks, _, ⟨rfl, rfl⟩, hlocks, by simp only [World.write, hfiles]⟩
    | error kind =>
      obtain ⟨rfl, rfl⟩ := h
      exact ⟨locks, w, ⟨rfl, rfl⟩, hlocks, hfiles⟩
  | create file =>
    cases a with
    | ok =>
      obtain ⟨hnone, rfl, rfl⟩ := h
      exact ⟨locks, _, ⟨by rw [hfiles, hnone], rfl, rfl⟩, hlocks,
        by simp only [World.write, hfiles]⟩
    | error kind =>
      obtain ⟨rfl, rfl⟩ := h
      exact ⟨locks, w, ⟨rfl, rfl⟩, hlocks, hfiles⟩
  | append file unit =>
    cases a with
    | ok =>
      obtain ⟨rfl, rfl⟩ := h
      refine ⟨locks, _, ⟨rfl, rfl⟩, hlocks, ?_⟩
      rw [hfiles]
      cases hfile : v.files file with
      | none => exact hfiles
      | some content => simp only [Option.map_some, Option.getD_some, World.write, hfiles]
    | error kind =>
      obtain ⟨rfl, rfl⟩ := h
      exact ⟨locks, w, ⟨rfl, rfl⟩, hlocks, hfiles⟩
  | sync =>
    obtain ⟨rfl, rfl⟩ := h
    exact ⟨locks, w, ⟨rfl, rfl⟩, hlocks, hfiles⟩

/-! ### One process moves on -/

section Advance

variable {R : Type} {t : State M}

/-- A process that waits for a call has got there in `t'`, with no more than the locks `locks`,
while the calls in `keep` stand still. -/
structure Advances (keep : Nat → Prop) (S : Session M R) (locks : Finset L) (c : Call F L B R)
    (t t' : State M) (waits : Option Nat) : Prop where
  reaches : Reaches t t'
  files : t'.world.files = t.world.files
  next : t.next ≤ t'.next
  kept : ∀ j, keep j → t'.calls j = t.calls j ∧ t'.held j = t.held j
  held : ∀ j, ¬keep j → t'.held j ≠ ∅ → waits = some j ∧ t'.held j ⊆ locks
  own : ∀ j, waits = some j → ¬keep j ∧ j < t'.next
  waits : Waits t' S waits c

variable {keep : Nat → Prop} {S : Session M R} {locks : Finset L}

omit [DecidableEq F] [DecidableEq L] in
theorem State.set_calls_of_ne (t : State M) {i j : Nat} (h : j ≠ i) (w : World M)
    (call : Option (Σ op : M.Op, Call F L B (M.Result op))) (held : Finset L) :
    (t.set i w call held).calls j = t.calls j ∧ (t.set i w call held).held j = t.held j :=
  ⟨Function.update_of_ne h _ _, Function.update_of_ne h _ _⟩

/-- After a move of a call that is not kept. -/
theorem Advances.of_set {t' : State M} {c : Call F L B R} {waits : Option Nat} {j : Nat}
    {w : World M} {call : Option (Σ op : M.Op, Call F L B (M.Result op))} {held : Finset L}
    (hstep : Step t (t.set j w call held)) (hfiles : w.files = t.world.files) (hj : ¬keep j)
    (h : Advances keep S locks c (t.set j w call held) t' waits) :
    Advances keep S locks c t t' waits where
  reaches := .head hstep h.reaches
  files := h.files.trans hfiles
  next := (le_max_left _ _).trans h.next
  kept k hk := by
    have hne : k ≠ j := fun heq => hj (heq ▸ hk)
    obtain ⟨hcalls, hheld⟩ := t.set_calls_of_ne hne w call held
    exact ⟨(h.kept k hk).1.trans hcalls, (h.kept k hk).2.trans hheld⟩
  held := h.held
  own := h.own
  waits := h.waits

/-- What a session may be relied on: from where it stands, it gets to its next request. -/
def Advancing (keep : Nat → Prop) (S : Session M R) (locks : Finset L) (S' : Session M R) : Prop :=
  ∀ t : State M, (∀ j, keep j → j < t.next) → (∀ j, ¬keep j → t.held j = ∅) →
    Follows t.world.log S S' → ∃ t' waits, Advances keep S locks S'.code t t' waits

/-- A call that is under way stands at a request, or returns and the process goes on. -/
theorem advances_of_call (hkeep : ∀ k, keep k → k < t.next) {j : Nat} (hj : ¬keep j)
    (hlt : j < t.next) (hheld : ∀ k, ¬keep k → k ≠ j → t.held k = ∅) (hlocks : t.held j ⊆ locks)
    {op : M.Op} {c : Call F L B (M.Result op)} (hcall : t.calls j = some ⟨op, c⟩)
    {next : M.Result op → Session M R} (hfollows : Follows t.world.log S (.call op next))
    (hnext : ∀ result, Advancing keep S locks (next result)) :
    ∃ t' waits, Advances keep S locks (c.bind fun result => (next result).code) t t' waits := by
  cases c with
  | request r k =>
    refine ⟨t, some j, .refl, rfl, le_rfl, fun _ _ => ⟨rfl, rfl⟩, fun k hk hne => ?_, ?_,
      op, next, _, r, k, rfl, hcall, hfollows⟩
    · by_cases heq : k = j
      · subst heq
        exact ⟨rfl, hlocks⟩
      · exact absurd (hheld k hk heq) hne
    · rintro _ ⟨⟩
      exact ⟨hj, hlt⟩
  | done result =>
    let t₁ : State M := t.set j (t.world.note (.returned j op result)) none ∅
    have hfollows' : Follows t₁.world.log S (next result) :=
      .returned (hfollows.suffix (List.suffix_cons _ _)) List.mem_cons_self
    have hfree : ∀ k, ¬keep k → t₁.held k = ∅ := by
      intro k hk
      by_cases heq : k = j
      · subst heq
        exact Function.update_self _ _ _
      · exact (t.set_calls_of_ne heq _ _ _).2.trans (hheld k hk heq)
    have hlater : ∀ k, keep k → k < t₁.next := fun k hk => lt_max_of_lt_left (hkeep k hk)
    obtain ⟨t', waits, hadvances⟩ := hnext result t₁ hlater hfree hfollows'
    exact ⟨t', waits, hadvances.of_set (.finish hcall) rfl hj⟩

theorem advancing (S' : Session M R) : Advancing keep S locks S' := by
  induction S' with
  | done r =>
    intro t _ hheld hfollows
    exact ⟨t, none, .refl, rfl, le_rfl, fun _ _ => ⟨rfl, rfl⟩,
      fun k hk hne => absurd (hheld k hk) hne, by rintro _ ⟨⟩, r, rfl, hfollows⟩
  | call op next ih =>
    intro t hkeep hheld hfollows
    have hj : ¬keep t.next := fun h => absurd (hkeep _ h) (lt_irrefl _)
    let t₁ : State M := t.set t.next (t.world.note (.started t.next op)) (some ⟨op, M.code op⟩) ∅
    have hfree : ∀ k, ¬keep k → k ≠ t.next → t₁.held k = ∅ := fun k hk hne =>
      (t.set_calls_of_ne hne _ _ _).2.trans (hheld k hk)
    have hown : t₁.held t.next = ∅ := Function.update_self _ _ _
    have hadvances := @advances_of_call _ _ _ M _ _ R t₁ keep S locks
      (fun k hk => lt_max_of_lt_left (hkeep k hk)) t.next hj
      (lt_max_of_lt_right (Nat.lt_succ_self _)) hfree (hown ▸ Finset.empty_subset _) op _
      (State.set_calls ..) next (hfollows.suffix (List.suffix_cons _ _)) ih
    obtain ⟨t', waits, hadvances⟩ := hadvances
    exact ⟨t', waits, hadvances.of_set (.start op) rfl hj⟩

end Advance

/-! ### Every run of processes is a run of their calls -/

section Mirror

variable {P : Type} {R : P → Type} {program : (p : P) → Session M (R p)}

/-- The calls that the processes wait for, as `assign` says, stand where the processes do. -/
structure Mirrors (assign : Nat → Option Nat) (s : State (M.hosting program)) (t : State M) :
    Prop where
  files : t.world.files = s.world.files
  begun : ∀ i j, assign i = some j → i < s.next ∧ j < t.next
  injective : ∀ i i' j, assign i = some j → assign i' = some j → i = i'
  held : ∀ j, t.held j ≠ ∅ → ∃ i, assign i = some j ∧ t.held j ⊆ s.held i
  running : ∀ i p c, s.calls i = some ⟨p, c⟩ → Waits t (program p) (assign i) c
  returned : ∀ i p r, .returned i p r ∈ s.world.log → Follows t.world.log (program p) (.done r)

/-- The calls that other processes wait for. -/
def OfOthers (assign : Nat → Option Nat) (i j : Nat) : Prop := ∃ i', i' ≠ i ∧ assign i' = some j

variable {assign : Nat → Option Nat} {s : State (M.hosting program)} {t : State M}

omit [DecidableEq F] [DecidableEq L] in
theorem Mirrors.others_lt (h : Mirrors assign s t) {i j : Nat} (hj : OfOthers assign i j) :
    j < t.next := by
  obtain ⟨i', -, hassign⟩ := hj
  exact (h.begun i' j hassign).2

omit [DecidableEq F] [DecidableEq L] in
/-- A lock that is not held for another process is held for process `i`. -/
theorem Mirrors.own_of_held (h : Mirrors assign s t) {i j : Nat} (hj : ¬OfOthers assign i j)
    (hne : t.held j ≠ ∅) : assign i = some j ∧ t.held j ⊆ s.held i := by
  obtain ⟨i', hassign, hlocks⟩ := h.held j hne
  by_cases heq : i' = i
  · exact heq ▸ ⟨hassign, hlocks⟩
  · exact absurd ⟨i', heq, hassign⟩ hj

omit [DecidableEq F] [DecidableEq L] in
/-- Process `i` moves, and the calls with it. -/
theorem Mirrors.set (h : Mirrors assign s t) {i : Nat} {w : World (M.hosting program)}
    {call : Option (Σ p : (M.hosting program).Op, Call F L B ((M.hosting program).Result p))}
    {held : Finset L} {t' : State M} {waits : Option Nat} (hfiles : t'.world.files = w.files)
    (hlog : t.world.log <:+ t'.world.log) (hnext : t.next ≤ t'.next)
    (hkept : ∀ j, OfOthers assign i j → t'.calls j = t.calls j ∧ t'.held j = t.held j)
    (hheld : ∀ j, ¬OfOthers assign i j → t'.held j ≠ ∅ → waits = some j ∧ t'.held j ⊆ held)
    (hown : ∀ j, waits = some j → ¬OfOthers assign i j ∧ j < t'.next)
    (hcall : ∀ p c, call = some ⟨p, c⟩ → Waits t' (program p) waits c)
    (hreturned : ∀ i p r, .returned i p r ∈ w.log →
      .returned i p r ∈ s.world.log ∨ Follows t'.world.log (program p) (.done r)) :
    Mirrors (Function.update assign i waits) (s.set i w call held) t' where
  files := hfiles
  begun k j hk := by
    by_cases heq : k = i
    · subst heq
      rw [Function.update_self] at hk
      exact ⟨lt_max_of_lt_right (Nat.lt_succ_self k), (hown j hk).2⟩
    · rw [Function.update_of_ne heq] at hk
      obtain ⟨hstarted, hbegun⟩ := h.begun k j hk
      exact ⟨lt_max_of_lt_left hstarted, hbegun.trans_le hnext⟩
  injective k k' j hk hk' := by
    by_cases heq : k = i <;> by_cases heq' : k' = i
    · rw [heq, heq']
    · subst heq
      rw [Function.update_self] at hk
      rw [Function.update_of_ne heq'] at hk'
      exact absurd ⟨k', heq', hk'⟩ (hown j hk).1
    · subst heq'
      rw [Function.update_self] at hk'
      rw [Function.update_of_ne heq] at hk
      exact absurd ⟨k, heq, hk⟩ (hown j hk').1
    · rw [Function.update_of_ne heq] at hk
      rw [Function.update_of_ne heq'] at hk'
      exact h.injective k k' j hk hk'
  held j hj := by
    by_cases hother : OfOthers assign i j
    · rw [(hkept j hother).2] at hj ⊢
      obtain ⟨k, hne, hk⟩ := hother
      obtain ⟨k', hk', hlocks⟩ := h.held j hj
      obtain rfl := h.injective k k' j hk hk'
      exact ⟨k, by rwa [Function.update_of_ne hne],
        by simpa only [State.set, Function.update_of_ne hne] using hlocks⟩
    · obtain ⟨hwaits, hlocks⟩ := hheld j hother hj
      exact ⟨i, by rwa [Function.update_self], by simpa only [State.set, Function.update_self]⟩
  running k p c hc := by
    by_cases heq : k = i
    · subst heq
      rw [State.set_calls] at hc
      rw [Function.update_self]
      exact hcall p c hc
    · rw [(s.set_calls_of_ne heq w call held).1] at hc
      rw [Function.update_of_ne heq]
      exact (h.running k p c hc).mono hlog fun j hj => (hkept j ⟨k, heq, hj⟩).1
  returned k p r hmem := by
    rcases hreturned k p r hmem with hold | hnew
    · exact (h.returned k p r hold).suffix hlog
    · exact hnew

/-- The same for a process that advances from a state which its last request has led to. -/
theorem Mirrors.set_of_advances (h : Mirrors assign s t) {i : Nat} {w : World (M.hosting program)}
    {p : (M.hosting program).Op} {c : Call F L B ((M.hosting program).Result p)} {held : Finset L}
    {t₁ t' : State M} {waits : Option Nat}
    (hreaches : Reaches t t₁) (hnext : t.next ≤ t₁.next) (hfiles : t₁.world.files = w.files)
    (hkept : ∀ j, OfOthers assign i j → t₁.calls j = t.calls j ∧ t₁.held j = t.held j)
    (hadvances : Advances (OfOthers assign i) (program p) held c t₁ t' waits)
    (hreturned : ∀ i p r, .returned i p r ∈ w.log → .returned i p r ∈ s.world.log) :
    Mirrors (Function.update assign i waits) (s.set i w (some ⟨p, c⟩) held) t' := by
  refine h.set (hadvances.files.trans hfiles) (Reaches.log (hreaches.trans hadvances.reaches))
    (hnext.trans hadvances.next) (fun j hj => ?_) hadvances.held hadvances.own ?_
    fun i p r hmem => .inl (hreturned i p r hmem)
  · exact ⟨(hadvances.kept j hj).1.trans (hkept j hj).1,
      (hadvances.kept j hj).2.trans (hkept j hj).2⟩
  · rintro p c ⟨⟩
    exact hadvances.waits

/-- Every step of the processes is some steps of their calls. -/
theorem Mirrors.step (h : Mirrors assign s t) {s' : State (M.hosting program)} (hstep : Step s s') :
    ∃ assign' t', Reaches t t' ∧ Mirrors assign' s' t' := by
  cases hstep with
  | start p =>
    have hfree : ∀ j, ¬OfOthers assign s.next j → t.held j = ∅ := by
      intro j hj
      by_contra hne
      exact absurd (h.begun _ j (h.own_of_held hj hne).1).1 (lt_irrefl _)
    have hadvancing : Advancing (OfOthers assign s.next) (program p) ∅ (program p) := advancing _
    obtain ⟨t', waits, hadvances⟩ := hadvancing t (fun _ => h.others_lt) hfree .refl
    refine ⟨_, t', hadvances.reaches, h.set_of_advances .refl le_rfl h.files
      (fun _ _ => ⟨rfl, rfl⟩) hadvances fun i p' r hmem => ?_⟩
    exact (List.mem_cons.mp hmem).resolve_left (by rintro ⟨⟩)
  | @answer i p β r next a held w hcall hanswer hdisjoint =>
    have hwaits := h.running _ _ _ hcall
    cases hassign : assign i with
    | none =>
      rw [hassign] at hwaits
      obtain ⟨_, hdone, -⟩ := hwaits
      cases hdone
    | some j =>
      rw [hassign] at hwaits
      obtain ⟨op, after, _, _, k, hrequest, hstands, hfollows⟩ := hwaits
      cases hrequest
      have hj : ¬OfOthers assign i j := by
        rintro ⟨i', hne, hi'⟩
        exact hne (h.injective i' i j hi' hassign)
      have hsome : t.held j ⊆ s.held i := by
        by_cases hempty : t.held j = ∅
        · exact hempty ▸ Finset.empty_subset _
        · exact (h.own_of_held hj hempty).2
      obtain ⟨locks, v, hmirror, hlocks, hfiles⟩ : ∃ locks v,
          Answers j op (t.held j) t.world r a locks v ∧ locks ⊆ held ∧ v.files = w.files :=
        hanswer.mirror hsome h.files
      -- a lock that another call holds is held by another process
      have hothers : ∀ k, k ≠ j → Disjoint (t.held k) locks := by
        intro k hk
        by_cases hempty : t.held k = ∅
        · simp [hempty]
        · obtain ⟨i', hi', hheld⟩ := h.held k hempty
          have hne : i' ≠ i := by
            rintro rfl
            exact hk (Option.some.inj (hi'.symm.trans hassign))
          exact (hdisjoint i' hne).mono hheld hlocks
      have hanswered : Step t (t.set j v (some ⟨op, k a⟩) locks) :=
        .answer hstands hmirror hothers
      have hfree : ∀ k', ¬OfOthers assign i k' → k' ≠ j →
          (t.set j v (some ⟨op, k a⟩) locks).held k' = ∅ := by
        intro k' hk' hne
        rw [(t.set_calls_of_ne hne _ _ _).2]
        by_contra hempty
        exact hne (Option.some.inj ((h.own_of_held hk' hempty).1.symm.trans hassign))
      have hown : (t.set j v (some ⟨op, k a⟩) locks).held j ⊆ held := by
        have hlast : (t.set j v (some ⟨op, k a⟩) locks).held j = locks := Function.update_self _ _ _
        rwa [hlast]
      have hadvances := @advances_of_call _ _ _ M _ _ (R p) (t.set j v (some ⟨op, k a⟩) locks)
        (OfOthers assign i) (program p) held
        (fun k' hk' => lt_max_of_lt_left (h.others_lt hk')) j hj
        (lt_max_of_lt_right (Nat.lt_succ_self j)) hfree hown op _ (State.set_calls ..)
        after (hfollows.suffix hmirror.log) fun result => advancing (after result)
      obtain ⟨t', waits, hadvances⟩ := hadvances
      refine ⟨_, t', .head hanswered hadvances.reaches, h.set_of_advances (.single hanswered)
        (le_max_left _ _) hfiles (fun k' hk' => ?_) hadvances fun i' p' r' hmem => ?_⟩
      · exact t.set_calls_of_ne (fun heq : k' = j => hj (heq ▸ hk')) _ _ _
      · rcases answers_events hanswer with hsame | ⟨_, _, _, hcons⟩
        · exact hsame ▸ hmem
        · rw [hcons] at hmem
          exact (List.mem_cons.mp hmem).resolve_left (by rintro ⟨⟩)
  | @finish i p result hcall =>
    have hwaits := h.running _ _ _ hcall
    cases hassign : assign i with
    | some j =>
      rw [hassign] at hwaits
      obtain ⟨_, _, _, _, _, hrequest, -⟩ := hwaits
      cases hrequest
    | none =>
      rw [hassign] at hwaits
      obtain ⟨_, hdone, hfollows⟩ := hwaits
      cases hdone
      refine ⟨Function.update assign i none, t, .refl, h.set h.files (List.suffix_refl _) le_rfl
        (fun _ _ => ⟨rfl, rfl⟩) (fun j hj hne => ?_) (by rintro _ ⟨⟩)
        (by rintro _ _ ⟨⟩) fun i' p' r hmem => ?_⟩
      · exact absurd ((h.own_of_held hj hne).1.symm.trans hassign) (by simp)
      · rcases List.mem_cons.mp hmem with heq | hmem
        · cases heq
          exact .inr hfollows
        · exact .inl hmem
  | @crash i x hcall =>
    cases hassign : assign i with
    | none =>
      refine ⟨Function.update assign i none, t, .refl, h.set h.files (List.suffix_refl _) le_rfl
        (fun _ _ => ⟨rfl, rfl⟩) (fun j hj hne => ?_) (by rintro _ ⟨⟩)
        (by rintro _ _ ⟨⟩) fun _ _ _ hmem => .inl hmem⟩
      exact absurd ((h.own_of_held hj hne).1.symm.trans hassign) (by simp)
    | some j =>
      -- its call stops with it
      have hwaits := h.running i x.1 x.2 hcall
      rw [hassign] at hwaits
      obtain ⟨op, after, _, r, k, -, hstands, -⟩ := hwaits
      have hj : ¬OfOthers assign i j := by
        rintro ⟨i', hne, hi'⟩
        exact hne (h.injective i' i j hi' hassign)
      refine ⟨Function.update assign i none, t.set j t.world none ∅, .single (.crash hstands),
        h.set h.files (List.suffix_refl _) (le_max_left _ _) (fun k' hk' => ?_)
        (fun k' hk' hne => ?_) (by rintro _ ⟨⟩) (by rintro _ _ ⟨⟩) fun _ _ _ hmem => .inl hmem⟩
      · exact t.set_calls_of_ne (fun heq : k' = j => hj (heq ▸ hk')) _ _ _
      · by_cases heq : k' = j
        · subst heq
          exact absurd (Function.update_self _ _ _) hne
        · rw [(t.set_calls_of_ne heq _ _ _).2] at hne
          exact absurd (Option.some.inj ((h.own_of_held hk' hne).1.symm.trans hassign)) heq
  | @remove file hremovable =>
    refine ⟨assign, { t with world := t.world.remove file }, .single (.remove hremovable), ?_,
      h.begun, h.injective, h.held, fun i p c hc => ?_, fun i p r hmem => ?_⟩
    · simp only [World.remove, h.files]
    · exact (h.running i p c hc).mono (List.suffix_cons _ _) fun _ _ => rfl
    · exact (h.returned i p r ((List.mem_cons.mp hmem).resolve_left (by rintro ⟨⟩))).suffix
        (List.suffix_cons _ _)

/-- Whatever processes do in any interleaving, calls of `M` do it: the files are the same, and what
a process returns is what it makes of the answers to its calls. -/
theorem Reaches.of_hosting {files : F → Option (List B)}
    (h : Reaches (State.initial L files : State (M.hosting program)) s) :
    ∃ t : State M, Reaches (State.initial L files) t ∧ t.world.files = s.world.files ∧
      ∀ i p r, .returned i p r ∈ s.world.log → (program p).Yields t.world.log r := by
  have hmirrors : ∃ assign t, Reaches (State.initial L files) t ∧ Mirrors assign s t := by
    induction h with
    | refl =>
      refine ⟨fun _ => none, State.initial L files, .refl, rfl, ?_, ?_, ?_, ?_, ?_⟩ <;>
        simp [State.initial]
    | tail _ hstep ih =>
      obtain ⟨assign, t, ht, hmirrors⟩ := ih
      obtain ⟨assign', t', htt', hmirrors'⟩ := hmirrors.step hstep
      exact ⟨assign', t', ht.trans htt', hmirrors'⟩
  obtain ⟨assign, t, ht, hmirrors⟩ := hmirrors
  exact ⟨t, ht, hmirrors.files, fun i p r hmem => (hmirrors.returned i p r hmem).yields rfl⟩

end Mirror

/-! ### A process that nobody disturbs -/

section Play

variable {M' : Machine F L B} {i j : Nat} {op : M.Op} {p : M'.Op} {held : Finset L}
  {w : World M} {w' : World M'}

/-- Requests are answered from the files and the locks, whoever makes them. -/
theorem perform_alike {β : Type} (r : Request F L B β) (h : w.files = w'.files) :
    (perform i op r held w).1 = (perform j p r held w').1 ∧
      (perform i op r held w).2.1 = (perform j p r held w').2.1 ∧
      (perform i op r held w).2.2.files = (perform j p r held w').2.2.files := by
  cases r with
  | acquire lock => by_cases hlock : lock ∈ held <;> simp [perform, hlock, h]
  | release lock => exact ⟨rfl, rfl, h⟩
  | present file => exact ⟨by simp [perform, h], rfl, h⟩
  | read file => exact ⟨by simp [perform, h], rfl, h⟩
  | replace file content => exact ⟨rfl, rfl, by simp [perform, World.write, h]⟩
  | create file => cases hfile : w'.files file <;> simp [perform, World.write, h, hfile]
  | append file unit => cases hfile : w'.files file <;> simp [perform, World.write, h, hfile]
  | sync => exact ⟨rfl, rfl, h⟩

theorem exec_alike {α : Type} (c : Call F L B α) (h : w.files = w'.files) :
    (exec i op c held w).1 = (exec j p c held w').1 ∧
      (exec i op c held w).2.1 = (exec j p c held w').2.1 ∧
      (exec i op c held w).2.2.files = (exec j p c held w').2.2.files := by
  induction c generalizing held w w' with
  | done a => exact ⟨rfl, rfl, h⟩
  | request r next ih =>
    obtain ⟨hanswer, hheld, hfiles⟩ := @perform_alike _ _ _ M _ _ M' i j op p held w w' _ r h
    simp only [exec, hanswer, hheld]
    exact ih _ hfiles

/-- A call that nobody disturbs holds no lock when it returns. -/
def Machine.Releases (M : Machine F L B) : Prop :=
  ∀ i op (w : World M), (exec i op (M.code op) ∅ w).2.1 = ∅

/-- What a process returns whose calls nobody disturbs, and what they leave behind. -/
def Session.play {R : Type} : Session M R → State M → R × State M
  | done r, t => (r, t)
  | call op next, t => (next (t.told op)).play (t.solo op)

theorem Session.play_run_bind {ε R R' : Type} {x : ExceptT ε (Session M) R}
    {f : R → ExceptT ε (Session M) R'} {t t' : State M} {a : R}
    (h : x.run.play t = (.ok a, t')) : (x >>= f).run.play t = (f a).run.play t' := by
  have hbind : ∀ {R R' : Type} (S : Session M R) (g : R → Session M R') (t : State M),
      (S.bind g).play t = (g (S.play t).1).play (S.play t).2 := by
    intro R R' S g t
    induction S generalizing t with
    | done r => rfl
    | call op next ih => exact ih _ _
  have hrun : (x >>= f).run = x.run.bind (ExceptT.bindCont f) := rfl
  rw [hrun, hbind, h]
  rfl

/-- Undisturbed, the requests of a process are its calls one after another. -/
theorem Session.exec_code (hreleases : M.Releases) {R : Type} (S : Session M R) {t : State M}
    (h : w'.files = t.world.files) : (exec j p S.code ∅ w').1 = (S.play t).1 := by
  induction S generalizing t w' with
  | done r => rfl
  | call op next ih =>
    obtain ⟨hresult, hheld, hfiles⟩ := @exec_alike _ _ _ M' _ _ M j t.next p op ∅ w'
      (t.world.note (.started t.next op)) _ (M.code op) h
    rw [hreleases] at hheld
    rw [code, exec_bind, hresult, hheld]
    exact ih _ hfiles

theorem told_hosting {P : Type} {R : P → Type} {program : (p : P) → Session M (R p)}
    (hreleases : M.Releases) {s : State (M.hosting program)} {t : State M}
    (h : s.world.files = t.world.files) (p : P) : s.told p = ((program p).play t).1 :=
  Session.exec_code hreleases (program p) h

end Play

end Files
