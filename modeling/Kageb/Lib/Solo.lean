import Kageb.Lib.Files

/-! Calls that nobody disturbs: what a call does when no other call runs and nothing fails, as a
function. Every such call is a run of the system, and so is its beginning up to any request. -/

namespace Files

variable {F L B : Type} [DecidableEq F] [DecidableEq L] {M : Machine F L B}

/-- What a request answers when nothing fails. -/
def perform (i : Nat) (op : M.Op) {β : Type} (r : Request F L B β) (held : Finset L)
    (w : World M) : β × Finset L × World M :=
  match r with
  | .acquire lock =>
    if lock ∈ held then (.busy, held, w) else (.locked, insert lock held, w)
  | .release lock => ((), held.erase lock, w)
  | .present file => ((w.files file).isSome, held, w)
  | .read file =>
    ((match w.files file with
      | some content => .ok content
      | none => .error .notFound), held, w)
  | .replace file content => (.ok (), held, w.write i op file content)
  | .create file =>
    if (w.files file).isSome then (.error .alreadyExists, held, w)
    else (.ok (), held, w.write i op file [])
  | .append file unit =>
    (.ok (), held, ((w.files file).map fun content => w.write i op file (content ++ [unit])).getD w)
  | .sync => (.ok (), held, w)

/-- The first requests of a call. -/
def runFor (i : Nat) (op : M.Op) {α : Type} :
    Nat → Call F L B α → Finset L → World M → Call F L B α × Finset L × World M
  | 0, c, held, w => (c, held, w)
  | _ + 1, .done a, held, w => (.done a, held, w)
  | n + 1, .request r next, held, w =>
    let (a, held', w') := perform i op r held w
    runFor i op n (next a) held' w'

def exec (i : Nat) (op : M.Op) {α : Type} : Call F L B α → Finset L → World M → α × Finset L × World M
  | .done a, held, w => (a, held, w)
  | .request r next, held, w =>
    let (a, held', w') := perform i op r held w
    exec i op (next a) held' w'

theorem perform_answers (i : Nat) (op : M.Op) {β : Type} (r : Request F L B β) (held : Finset L)
    (w : World M) :
    Answers i op held w r (perform i op r held w).1 (perform i op r held w).2.1
      (perform i op r held w).2.2 := by
  cases r with
  | acquire lock => by_cases h : lock ∈ held <;> simp [perform, Answers, h]
  | release lock => exact ⟨rfl, rfl⟩
  | present file => exact ⟨rfl, rfl, rfl⟩
  | read file => cases h : w.files file <;> simp [perform, Answers, h]
  | replace file content => exact ⟨rfl, rfl⟩
  | create file => cases h : w.files file <;> simp [perform, Answers, h]
  | append file unit => exact ⟨rfl, rfl⟩
  | sync => exact ⟨rfl, rfl⟩

theorem exists_runFor_eq_exec (i : Nat) (op : M.Op) {α : Type} (c : Call F L B α) (held : Finset L)
    (w : World M) :
    ∃ n, runFor i op n c held w = (.done (exec i op c held w).1, (exec i op c held w).2) := by
  induction c generalizing held w with
  | done a => exact ⟨0, rfl⟩
  | request r next ih =>
    obtain ⟨n, hn⟩ := ih (perform i op r held w).1 (perform i op r held w).2.1
      (perform i op r held w).2.2
    exact ⟨n + 1, hn⟩

theorem perform_log (i : Nat) (op : M.Op) {β : Type} (r : Request F L B β) (held : Finset L)
    (w : World M) : w.log <:+ (perform i op r held w).2.2.log := by
  cases r with
  | acquire lock => by_cases h : lock ∈ held <;> simp [perform, h]
  | replace file content => exact List.suffix_cons _ _
  | create file =>
    by_cases h : (w.files file).isSome
    · simp [perform, h]
    · simp only [perform, if_neg h]
      exact List.suffix_cons _ _
  | append file unit =>
    cases h : w.files file with
    | none => simp [perform, h]
    | some content =>
      simp only [perform, h]
      exact List.suffix_cons _ _
  | release lock => exact List.suffix_refl _
  | present file => exact List.suffix_refl _
  | read file => exact List.suffix_refl _
  | sync => exact List.suffix_refl _

/-- What has happened is not forgotten. -/
theorem exec_log (i : Nat) (op : M.Op) {α : Type} (c : Call F L B α) (held : Finset L)
    (w : World M) : w.log <:+ (exec i op c held w).2.2.log := by
  induction c generalizing held w with
  | done a => exact List.suffix_refl _
  | request r next ih => exact (perform_log i op r held w).trans (ih _ _ _)

/-! ### Rules -/

section Rules

variable {i : Nat} {op : M.Op} {α γ ε : Type} {held : Finset L} {w : World M}

theorem exec_bind {c : Call F L B α} {f : α → Call F L B γ} :
    exec i op (c.bind f) held w =
      exec i op (f (exec i op c held w).1) (exec i op c held w).2.1 (exec i op c held w).2.2 := by
  induction c generalizing held w with
  | done a => rfl
  | request r next ih => exact ih _

/-- What follows a call that can fail. -/
def thenRun (i : Nat) (op : M.Op) (x : Except ε α × Finset L × World M)
    (f : α → ExceptT ε (Call F L B) γ) : Except ε γ × Finset L × World M :=
  match x.1 with
  | .ok a => exec i op (f a).run x.2.1 x.2.2
  | .error e => (.error e, x.2)

theorem exec_run_bind {x : ExceptT ε (Call F L B) α} {f : α → ExceptT ε (Call F L B) γ} :
    exec i op (x >>= f).run held w = thenRun i op (exec i op x.run held w) f := by
  have hrun : (x >>= f).run = x.run.bind (ExceptT.bindCont f) := rfl
  rw [hrun, exec_bind, thenRun]
  cases (exec i op x.run held w).1 <;> rfl

@[simp] theorem thenRun_ok {a : α} {f : α → ExceptT ε (Call F L B) γ} :
    thenRun i op (.ok a, held, w) f = exec i op (f a).run held w := rfl

@[simp] theorem thenRun_error {e : ε} {f : α → ExceptT ε (Call F L B) γ} :
    thenRun i op (.error e, held, w) f = (.error e, held, w) := rfl

@[simp] theorem exec_pure {a : α} :
    exec i op (pure a : ExceptT ε (Call F L B) α).run held w = (.ok a, held, w) := rfl

@[simp] theorem exec_throw {e : ε} :
    exec i op (throw e : ExceptT ε (Call F L B) α).run held w = (.error e, held, w) := rfl

@[simp] theorem exec_lift {x : Except ε α} :
    exec i op (Call.lift x).run held w = (x, held, w) := rfl

theorem exec_adapt {ε' : Type} {x : ExceptT ε (Call F L B) α} {f : ε → ε'} :
    exec i op (ExceptT.adapt f x).run held w =
      ((exec i op x.run held w).1.mapError f, (exec i op x.run held w).2) := by
  have hrun : (ExceptT.adapt f x).run = x.run.bind fun r => .done (r.mapError f) := rfl
  rw [hrun, exec_bind]
  rfl

@[simp] theorem exec_inner {c : Call F L B α} :
    exec i op (Call.inner c : ExceptT ε (Call F L B) α).run held w =
      (.ok (exec i op c held w).1, (exec i op c held w).2) := exec_bind

@[simp] theorem exec_isThere {file : F} :
    exec i op (Call.isThere file : ExceptT ε (Call F L B) Bool).run held w =
      (.ok (w.files file).isSome, held, w) := rfl

theorem exec_read {file : F} : exec i op (Call.attempt (.read file)).run held w =
    ((match w.files file with
      | some content => .ok content
      | none => .error .notFound), held, w) := rfl

@[simp] theorem exec_persist {file : F} {content : List B} :
    exec i op (Call.persist file content).run held w =
      (.ok (), held, w.write i op file content) := rfl

@[simp] theorem exec_sync : exec i op (Call.attempt .sync).run held w = (.ok (), held, w) := rfl

theorem exec_create {file : F} : exec i op (Call.attempt (.create file)).run held w =
    if (w.files file).isSome then (.error .alreadyExists, held, w)
    else (.ok (), held, w.write i op file []) := by
  by_cases h : (w.files file).isSome <;>
    simp [Call.attempt, Call.ask, ExceptT.run, ExceptT.mk, exec, perform, h]

theorem exec_guarded {lock : L} {refused : Acquired → Option ε}
    {body : ExceptT ε (Call F L B) α} (hlock : lock ∉ held) (hrefused : refused .locked = none) :
    exec i op (Call.guarded lock refused body).run held w =
      ((exec i op body.run (insert lock held) w).1,
        (exec i op body.run (insert lock held) w).2.1.erase lock,
        (exec i op body.run (insert lock held) w).2.2) := by
  have hperform : perform i op (.acquire lock) held w = (.locked, insert lock held, w) := by
    simp [perform, hlock]
  have hrun : (Call.guarded lock refused body).run = .request (.acquire lock) fun acquired =>
      (refused acquired).elim
        (body.run.bind fun result => .request (.release lock) fun _ => .done result)
        fun e => .done (.error e) := by
    refine congrArg (Call.request (Request.acquire lock)) (funext fun acquired => ?_)
    cases refused acquired <;> rfl
  rw [hrun]
  simp only [exec, hperform, hrefused, Option.elim_none, exec_bind]
  rfl

/-- What holds whatever is written to the file holds after the units were appended. -/
theorem exec_appendAll {P : World M → Prop} {file : F} {units : List B} (hw : P w)
    (hwrite : ∀ w content, P w → P (w.write i op file content)) :
    ∃ w', exec i op (Call.appendAll file units).run held w = (.ok (), held, w') ∧ P w' := by
  induction units generalizing w with
  | nil => exact ⟨w, rfl, hw⟩
  | cons unit units ih =>
    have happend : ∃ w', exec i op (Call.attempt (.append file unit)).run held w =
        (.ok (), held, w') ∧ P w' := by
      refine ⟨_, rfl, ?_⟩
      cases hfile : w.files file with
      | none => exact hw
      | some content => exact hwrite w _ hw
    obtain ⟨w', happend, hw'⟩ := happend
    rw [Call.appendAll, exec_run_bind, happend]
    exact ih hw'

end Rules

namespace State

/-- No call holds a lock. -/
def Free (s : State M) : Prop := ∀ i, s.held i = ∅

/-- The state after one call that nobody disturbs. -/
def solo (s : State M) (op : M.Op) : State M :=
  let (result, _, w) := exec s.next op (M.code op) ∅ (s.world.note (.started s.next op))
  s.set s.next (w.note (.returned s.next op result)) none ∅

/-- The state after a call that nobody disturbs, but whose process stops after some requests. -/
def stopped (s : State M) (op : M.Op) (requests : Nat) : State M :=
  let (_, _, w) := runFor s.next op requests (M.code op) ∅ (s.world.note (.started s.next op))
  s.set s.next w none ∅

/-- What the call returns that nobody disturbs. -/
def told (s : State M) (op : M.Op) : M.Result op :=
  (exec s.next op (M.code op) ∅ (s.world.note (.started s.next op))).1

theorem solo_returned (s : State M) (op : M.Op) :
    .returned s.next op (s.told op) ∈ (s.solo op).world.log :=
  List.mem_cons_self

theorem solo_world {s : State M} {op : M.Op} {result : M.Result op} {held : Finset L} {w : World M}
    (h : exec s.next op (M.code op) ∅ (s.world.note (.started s.next op)) = (result, held, w)) :
    (s.solo op).world = w.note (.returned s.next op result) := by
  simp only [solo, h]
  rfl

theorem solo_log (s : State M) (op : M.Op) : s.world.log <:+ (s.solo op).world.log := by
  have hexec := exec_log s.next op (M.code op) ∅ (s.world.note (.started s.next op))
  exact ((List.suffix_cons _ s.world.log).trans hexec).trans (List.suffix_cons _ _)

omit [DecidableEq F] [DecidableEq L] in
@[simp] theorem set_calls (s : State M) (i : Nat) (w : World M)
    (c : Option (Σ op : M.Op, Call F L B (M.Result op))) (held : Finset L) :
    (s.set i w c held).calls i = c := by
  simp [State.set]

omit [DecidableEq F] [DecidableEq L] in
theorem set_set (s : State M) (i : Nat) (w w' : World M)
    (c c' : Option (Σ op : M.Op, Call F L B (M.Result op))) (held held' : Finset L) :
    (s.set i w c held).set i w' c' held' = s.set i w' c' held' := by
  simp [State.set]

omit [DecidableEq F] [DecidableEq L] in
theorem Free.set {s : State M} (h : s.Free) (i : Nat) (w : World M)
    (c : Option (Σ op : M.Op, Call F L B (M.Result op))) : (s.set i w c ∅).Free := by
  intro j
  by_cases hj : j = i
  · subst hj
    simp [State.set]
  · simp only [State.set, Function.update_of_ne hj]
    exact h j

section

variable {s : State M} {i : Nat} {op : M.Op} {w : World M} {held : Finset L}

theorem set_answer {β : Type} {r : Request F L B β} {next : β → Call F L B (M.Result op)} {a : β}
    {w' : World M} {held' : Finset L} (h : Answers i op held w r a held' w')
    (hdisjoint : ∀ j, j ≠ i → Disjoint (s.held j) held') :
    Step (s.set i w (some ⟨op, .request r next⟩) held) (s.set i w' (some ⟨op, next a⟩) held') := by
  rw [← s.set_set i w w' (some ⟨op, .request r next⟩) _ held]
  refine .answer (set_calls ..) ?_ fun j hj => ?_
  · simpa [State.set] using h
  · simpa [State.set, Function.update_of_ne hj] using hdisjoint j hj

theorem set_done {a : M.Result op} : Step (s.set i w (some ⟨op, .done a⟩) held)
    (s.set i (w.note (.returned i op a)) none ∅) := by
  have hstep := Step.finish (s.set_calls i w (some ⟨op, .done a⟩) held)
  rwa [set_set] at hstep

theorem set_crash {x : Σ op : M.Op, Call F L B (M.Result op)} :
    Step (s.set i w (some x) held) (s.set i w none ∅) := by
  have hstep := Step.crash (s.set_calls i w (some x) held)
  rwa [set_set] at hstep

/-- The first requests of a call are a run of the system, if no other call holds a lock. -/
theorem Free.runFor_reaches (hfree : s.Free) {c : Call F L B (M.Result op)} (n : Nat) :
    Reaches (s.set i w (some ⟨op, c⟩) held)
      (s.set i (runFor i op n c held w).2.2 (some ⟨op, (runFor i op n c held w).1⟩)
        (runFor i op n c held w).2.1) := by
  induction n generalizing c held w with
  | zero => exact .refl
  | succ n ih =>
    cases c with
    | done a => exact .refl
    | request r next =>
      exact .head (set_answer (perform_answers i op r held w) (by simp [hfree _])) ih

theorem Free.reaches_solo (h : s.Free) (op : M.Op) :
    Reaches s (s.solo op) ∧ (s.solo op).Free := by
  refine ⟨.head (.start op) ?_, h.set _ _ _⟩
  obtain ⟨n, hn⟩ :=
    exists_runFor_eq_exec s.next op (M.code op) ∅ (s.world.note (.started s.next op))
  have hrun := @Free.runFor_reaches _ _ _ _ _ M s s.next op (s.world.note (.started s.next op)) ∅ h
    (M.code op) n
  rw [hn] at hrun
  exact hrun.tail set_done

theorem Free.reaches_stopped (h : s.Free) (op : M.Op) (requests : Nat) :
    Reaches s (s.stopped op requests) ∧ (s.stopped op requests).Free :=
  ⟨.head (.start op) ((h.runFor_reaches requests).tail set_crash), h.set _ _ _⟩

/-- The state after calls made one after another. -/
def soloAll (s : State M) (ops : List M.Op) : State M := ops.foldl solo s

theorem Free.reaches_soloAll (h : s.Free) (ops : List M.Op) :
    Reaches s (s.soloAll ops) ∧ (s.soloAll ops).Free := by
  induction ops generalizing s with
  | nil => exact ⟨.refl, h⟩
  | cons op ops ih =>
    obtain ⟨hreaches, hfree⟩ := h.reaches_solo op
    obtain ⟨hrest, hlast⟩ := ih hfree
    exact ⟨hreaches.trans hrest, hlast⟩

end

end State

end Files
