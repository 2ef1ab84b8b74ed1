import Kageb.Lib.Files

/-! What the log of a run says: it only grows, it says what the files hold, and a law that every
event obeys when it is added is obeyed by the whole log. -/

namespace Files

variable {F L B : Type} {M : Machine F L B}

/-- Every event obeys the law, given what happened before it. -/
def Lawful (law : List (Event M) → Event M → Prop) : List (Event M) → Prop
  | [] => True
  | event :: older => law older event ∧ Lawful law older

theorem Lawful.suffix {law : List (Event M) → Event M → Prop} {log older : List (Event M)}
    (h : Lawful law log) (hsuffix : older <:+ log) : Lawful law older := by
  induction log with
  | nil => exact List.suffix_nil.mp hsuffix ▸ h
  | cons event log ih =>
    rcases List.suffix_cons_iff.mp hsuffix with rfl | hsuffix
    · exact h
    · exact ih h.2 hsuffix

theorem Lawful.event {law : List (Event M) → Event M → Prop} {log older : List (Event M)}
    {event : Event M} (h : Lawful law log) (hsuffix : event :: older <:+ log) : law older event :=
  (h.suffix hsuffix).1

theorem exists_suffix_of_mem {α : Type*} {a : α} {as : List α} (h : a ∈ as) :
    ∃ older, a :: older <:+ as := by
  obtain ⟨newer, older, rfl⟩ := List.append_of_mem h
  exact ⟨older, List.suffix_append newer _⟩

variable [DecidableEq F]

/-- What the events of a log have left in the files. -/
def contentOf (files : F → Option (List B)) : List (Event M) → F → Option (List B)
  | [] => files
  | .wrote _ _ file _ new :: older => Function.update (contentOf files older) file (some new)
  | .removed file :: older => Function.update (contentOf files older) file none
  | .started _ _ :: older => contentOf files older
  | .returned _ _ _ :: older => contentOf files older

variable [DecidableEq L]

theorem Answers.log {i : Nat} {op : M.Op} {held held' : Finset L} {w w' : World M} {β : Type}
    {r : Request F L B β} {a : β} (h : Answers i op held w r a held' w') :
    w.log <:+ w'.log := by
  rcases answers_events h with hsame | ⟨_, _, _, hcons⟩
  · exact hsame ▸ List.suffix_refl _
  · exact hcons ▸ List.suffix_cons _ _

theorem Step.log {s s' : State M} (h : Step s s') : s.world.log <:+ s'.world.log := by
  cases h with
  | start op => exact List.suffix_cons _ _
  | answer hcall hanswer hdisjoint => exact hanswer.log
  | finish hcall => exact List.suffix_cons _ _
  | crash hcall => exact List.suffix_refl _
  | remove hremovable => exact List.suffix_cons _ _

/-- What has happened is not forgotten. -/
theorem Reaches.log {s t : State M} (h : Reaches s t) : s.world.log <:+ t.world.log := by
  induction h with
  | refl => exact List.suffix_refl _
  | tail _ hstep ih => exact ih.trans hstep.log

/-! ### A call that has returned does nothing more -/

structure Orderly (s : State M) : Prop where
  started : ∀ i x, s.calls i = some x → i < s.next
  returned : ∀ i op result, .returned i op result ∈ s.world.log → s.calls i = none ∧ i < s.next
  last : ∀ event older i op result, event :: older <:+ s.world.log → event.call = some i →
    .returned i op result ∉ older

omit [DecidableEq F] [DecidableEq L] in
theorem orderly_initial (files : F → Option (List B)) :
    Orderly (State.initial L files : State M) where
  started := by simp [State.initial]
  returned := by simp [State.initial]
  last := by simp [State.initial]

omit [DecidableEq F] [DecidableEq L] in
/-- A move of a call that runs, or that is about to start. -/
theorem Orderly.set {s : State M} (h : Orderly s) {i : Nat} {w' : World M} {held' : Finset L}
    {call : Option (Σ op : M.Op, Call F L B (M.Result op))} (hruns : s.calls i ≠ none ∨ i = s.next)
    (hlog : w'.log = s.world.log ∨ ∃ e : Event M, e.call = some i ∧ w'.log = e :: s.world.log ∧
      ∀ op result, e = .returned i op result → call = none) :
    Orderly (s.set i w' call held') := by
  -- what has returned is another call
  have hothers : ∀ j op result, .returned j op result ∈ s.world.log → j ≠ i := by
    rintro j op result hmem rfl
    obtain ⟨hnone, hlt⟩ := h.returned j op result hmem
    exact hruns.elim (absurd hnone) fun heq => absurd (heq ▸ hlt) (lt_irrefl _)
  have hold : ∀ j op result, .returned j op result ∈ s.world.log →
      (s.set i w' call held').calls j = none ∧ j < (s.set i w' call held').next := by
    intro j op result hmem
    obtain ⟨hnone, hlt⟩ := h.returned j op result hmem
    simp only [State.set, Function.update_of_ne (hothers j op result hmem)]
    exact ⟨hnone, lt_max_of_lt_left hlt⟩
  refine ⟨fun j x hx => ?_, fun j op result hmem => ?_, fun event older j op result hsuffix hcall => ?_⟩
  · by_cases hj : j = i
    · exact hj ▸ lt_max_of_lt_right (Nat.lt_succ_self j)
    · simp only [State.set, Function.update_of_ne hj] at hx
      exact lt_max_of_lt_left (h.started j x hx)
  · rcases hlog with hsame | ⟨e, he, hcons, hdone⟩
    · exact hold j op result (hsame ▸ hmem)
    · have hmem : .returned j op result ∈ e :: s.world.log := hcons ▸ hmem
      rcases List.mem_cons.mp hmem with rfl | hmem
      · cases he
        simp only [State.set, Function.update_self]
        exact ⟨hdone op result rfl, lt_max_of_lt_right (Nat.lt_succ_self i)⟩
      · exact hold j op result hmem
  · rcases hlog with hsame | ⟨e, he, hcons, -⟩
    · exact h.last event older j op result (hsame ▸ hsuffix) hcall
    · have hsuffix : event :: older <:+ e :: s.world.log := hcons ▸ hsuffix
      rcases List.suffix_cons_iff.mp hsuffix with heq | hsuffix
      · cases heq
        cases he.symm.trans hcall
        exact fun hmem => hothers i op result hmem rfl
      · exact h.last event older j op result hsuffix hcall

theorem Orderly.step {s s' : State M} (h : Orderly s) (hstep : Step s s') : Orderly s' := by
  cases hstep with
  | start op => exact h.set (Or.inr rfl) (Or.inr ⟨_, rfl, rfl, by rintro _ _ ⟨⟩⟩)
  | answer hcall hanswer _ =>
    refine h.set (Or.inl (by simp [hcall])) ((answers_events hanswer).imp_right ?_)
    rintro ⟨file, old, new, hlog⟩
    exact ⟨_, rfl, hlog, by rintro _ _ ⟨⟩⟩
  | finish hcall => exact h.set (Or.inl (by simp [hcall])) (Or.inr ⟨_, rfl, rfl, fun _ _ _ => rfl⟩)
  | crash hcall => exact h.set (Or.inl (by simp [hcall])) (Or.inl rfl)
  | remove hremovable =>
    refine ⟨h.started, fun j op result hmem => ?_, fun event older j op result hsuffix hcall => ?_⟩
    · rcases List.mem_cons.mp hmem with heq | hmem
      · cases heq
      · exact h.returned j op result hmem
    · rcases List.suffix_cons_iff.mp hsuffix with heq | hsuffix
      · cases heq
        cases hcall
      · exact h.last event older j op result hsuffix hcall

theorem Reaches.orderly {s t : State M} (h : Reaches s t) (hs : Orderly s) : Orderly t := by
  induction h with
  | refl => exact hs
  | tail _ hstep ih => exact ih.step hstep

omit [DecidableEq F] [DecidableEq L] in
/-- The events of a call that has returned came before. -/
theorem Orderly.before {s : State M} (h : Orderly s) {i : Nat} {op : M.Op} {result : M.Result op}
    (hreturned : .returned i op result ∈ s.world.log) :
    ∃ older, .returned i op result :: older <:+ s.world.log ∧
      ∀ event ∈ s.world.log, event.call = some i → event = .returned i op result ∨ event ∈ older := by
  obtain ⟨newer, older, hlog⟩ := List.append_of_mem hreturned
  refine ⟨older, ⟨newer, hlog.symm⟩, fun event hevent hcall => ?_⟩
  rw [hlog, List.mem_append, List.mem_cons] at hevent
  refine hevent.resolve_left fun hnewer => ?_
  obtain ⟨newest, rest, rfl⟩ := List.append_of_mem hnewer
  refine h.last event (rest ++ .returned i op result :: older) i op result ⟨newest, ?_⟩ hcall ?_
  · rw [hlog]
    simp
  · simp

/-! ### A call is what was started -/

/-- Every call that runs, or that has written, was started as such. -/
structure Begun (s : State M) : Prop where
  running : ∀ i op c, s.calls i = some ⟨op, c⟩ → .started i op ∈ s.world.log
  wrote : ∀ i op file old new, .wrote i op file old new ∈ s.world.log → .started i op ∈ s.world.log

omit [DecidableEq F] [DecidableEq L] in
theorem begun_initial (files : F → Option (List B)) : Begun (State.initial L files : State M) where
  running := by simp [State.initial]
  wrote := by simp [State.initial]

omit [DecidableEq F] [DecidableEq L] in
theorem Begun.set {s : State M} (h : Begun s) {i : Nat} {w' : World M} {held' : Finset L}
    {call : Option (Σ op : M.Op, Call F L B (M.Result op))} (hlog : s.world.log <:+ w'.log)
    (hcall : ∀ op c, call = some ⟨op, c⟩ → .started i op ∈ w'.log)
    (hwrote : ∀ j op file old new, .wrote j op file old new ∈ w'.log →
      .wrote j op file old new ∈ s.world.log ∨ .started j op ∈ w'.log) :
    Begun (s.set i w' call held') where
  running j op c hc := by
    by_cases hj : j = i
    · subst hj
      simp only [State.set, Function.update_self] at hc
      exact hcall op c hc
    · simp only [State.set, Function.update_of_ne hj] at hc
      exact hlog.mem (h.running j op c hc)
  wrote j op file old new hmem :=
    (hwrote j op file old new hmem).elim (fun hold => hlog.mem (h.wrote j op file old new hold)) id

theorem Begun.step {s s' : State M} (h : Begun s) (hstep : Step s s') : Begun s' := by
  cases hstep with
  | start op =>
    refine h.set (List.suffix_cons _ _) ?_ fun j op' file old new hmem => Or.inl ?_
    · rintro op' c ⟨⟩
      exact List.mem_cons_self
    · exact (List.mem_cons.mp hmem).resolve_left nofun
  | answer hcall hanswer _ =>
    have hstarted := hanswer.log.mem (h.running _ _ _ hcall)
    refine h.set hanswer.log ?_ fun j op' file old new hmem => ?_
    · rintro op' c ⟨⟩
      exact hstarted
    · rcases answers_events hanswer with hsame | ⟨_, _, _, hcons⟩
      · exact Or.inl (hsame ▸ hmem)
      · rw [hcons] at hmem
        rcases List.mem_cons.mp hmem with heq | hmem
        · cases heq
          exact Or.inr hstarted
        · exact Or.inl hmem
  | finish hcall =>
    exact h.set (List.suffix_cons _ _) nofun fun j op' file old new hmem =>
      Or.inl ((List.mem_cons.mp hmem).resolve_left nofun)
  | crash hcall => exact h.set (List.suffix_refl _) nofun fun _ _ _ _ _ hmem => Or.inl hmem
  | remove hremovable =>
    refine ⟨fun j op' c hc => List.mem_cons_of_mem _ (h.running j op' c hc),
      fun j op' file old new hmem => List.mem_cons_of_mem _ (h.wrote j op' file old new ?_)⟩
    exact (List.mem_cons.mp hmem).resolve_left nofun

theorem Reaches.begun {s t : State M} (h : Reaches s t) (hs : Begun s) : Begun t := by
  induction h with
  | refl => exact hs
  | tail _ hstep ih => exact ih.step hstep

/-! ### What a call can return -/

/-- The call returns `a` for some answers to its requests. -/
inductive Call.Yields {α : Type} : Call F L B α → α → Prop
  | done (a : α) : Yields (.done a) a
  | request {β : Type} {r : Request F L B β} {next : β → Call F L B α} {a : α} (answer : β) :
      Yields (next answer) a → Yields (.request r next) a

section Yields

variable {α γ ε : Type}

omit [DecidableEq F] [DecidableEq L] in
theorem Call.yields_bind {c : Call F L B α} {f : α → Call F L B γ} {b : γ} :
    (c.bind f).Yields b ↔ ∃ a, c.Yields a ∧ (f a).Yields b := by
  induction c with
  | done a =>
    refine ⟨fun h => ⟨a, .done a, h⟩, ?_⟩
    rintro ⟨_, ⟨⟩, h⟩
    exact h
  | request r next ih =>
    constructor
    · rintro (_ | ⟨answer, h⟩)
      obtain ⟨a, ha, hb⟩ := (ih answer).mp h
      exact ⟨a, .request answer ha, hb⟩
    · rintro ⟨a, _ | ⟨answer, ha⟩, hb⟩
      exact .request answer ((ih answer).mpr ⟨a, ha, hb⟩)

omit [DecidableEq F] [DecidableEq L] in
/-- A call that can fail succeeds when its first part does and what follows does. -/
theorem Call.yields_run_bind {x : ExceptT ε (Call F L B) α} {f : α → ExceptT ε (Call F L B) γ}
    {b : γ} : (x >>= f).run.Yields (.ok b) ↔
      ∃ a, x.run.Yields (.ok a) ∧ (f a).run.Yields (.ok b) := by
  have hrun : (x >>= f).run = x.run.bind (ExceptT.bindCont f) := rfl
  rw [hrun, yields_bind]
  constructor
  · rintro ⟨e | a, hx, hf⟩
    · cases hf
    · exact ⟨a, hx, hf⟩
  · rintro ⟨a, hx, hf⟩
    exact ⟨.ok a, hx, hf⟩

omit [DecidableEq F] [DecidableEq L] in
theorem Call.yields_lift {x y : Except ε α} :
    (Call.lift x : ExceptT ε (Call F L B) α).run.Yields y ↔ x = y := by
  constructor
  · rintro ⟨⟩
    rfl
  · rintro rfl
    exact .done x

omit [DecidableEq F] [DecidableEq L] in
theorem Call.Yields.of_guarded {lock : L} {refused : Acquired → Option ε}
    {body : ExceptT ε (Call F L B) α} {a : α}
    (h : (Call.guarded lock refused body).run.Yields (.ok a)) : body.run.Yields (.ok a) := by
  obtain _ | ⟨acquired, h⟩ := h
  cases hrefused : refused acquired with
  | some e =>
    simp only [hrefused] at h
    cases h
  | none =>
    simp only [hrefused, yields_bind] at h
    obtain ⟨result, hbody, _ | ⟨_, ⟨⟩⟩⟩ := h
    exact hbody

/-- Whatever a call has returned, or may still return, is what its code can return. -/
structure Consistent (s : State M) : Prop where
  running : ∀ i op c, s.calls i = some ⟨op, c⟩ → ∀ result, c.Yields result →
    (M.code op).Yields result
  returned : ∀ i op result, .returned i op result ∈ s.world.log → (M.code op).Yields result

omit [DecidableEq F] [DecidableEq L] in
theorem consistent_initial (files : F → Option (List B)) :
    Consistent (State.initial L files : State M) where
  running := by simp [State.initial]
  returned := by simp [State.initial]

omit [DecidableEq F] [DecidableEq L] in
theorem Consistent.set {s : State M} (h : Consistent s) {i : Nat} {w' : World M}
    {held' : Finset L} {call : Option (Σ op : M.Op, Call F L B (M.Result op))}
    (hcall : ∀ op c, call = some ⟨op, c⟩ → ∀ result, c.Yields result → (M.code op).Yields result)
    (hlog : ∀ j op result, .returned j op result ∈ w'.log → .returned j op result ∈ s.world.log ∨
      (M.code op).Yields result) : Consistent (s.set i w' call held') where
  running j op c hc := by
    by_cases hj : j = i
    · subst hj
      simp only [State.set, Function.update_self] at hc
      exact hcall op c hc
    · simp only [State.set, Function.update_of_ne hj] at hc
      exact h.running j op c hc
  returned j op result hmem := (hlog j op result hmem).elim (h.returned j op result) id

theorem Consistent.step {s s' : State M} (h : Consistent s) (hstep : Step s s') :
    Consistent s' := by
  cases hstep with
  | start op =>
    refine h.set (fun op' c hc result hresult => ?_) fun j op' result hmem => ?_
    · cases hc
      exact hresult
    · exact Or.inl ((List.mem_cons.mp hmem).resolve_left nofun)
  | answer hcall hanswer hdisjoint =>
    refine h.set (fun op' c hc result hresult => ?_) fun j op' result hmem => Or.inl ?_
    · cases hc
      exact h.running _ _ _ hcall result (.request _ hresult)
    · rcases answers_events hanswer with hsame | ⟨file, old, new, hcons⟩
      · exact hsame ▸ hmem
      · rw [hcons] at hmem
        exact (List.mem_cons.mp hmem).resolve_left nofun
  | finish hcall =>
    refine h.set nofun fun j op' result hmem => ?_
    rcases List.mem_cons.mp hmem with heq | hmem
    · cases heq
      exact Or.inr (h.running _ _ _ hcall _ (.done _))
    · exact Or.inl hmem
  | crash hcall => exact h.set nofun fun j op' result hmem => Or.inl hmem
  | remove hremovable =>
    refine ⟨h.running, fun j op' result hmem => h.returned j op' result ?_⟩
    exact (List.mem_cons.mp hmem).resolve_left nofun

theorem Reaches.consistent {s t : State M} (h : Reaches s t) (hs : Consistent s) :
    Consistent t := by
  induction h with
  | refl => exact hs
  | tail _ hstep ih => exact ih.step hstep

/-- A call returns only what its code can return. -/
theorem Reaches.yields {files : F → Option (List B)} {s : State M}
    (h : Reaches (State.initial L files) s) {i : Nat} {op : M.Op} {result : M.Result op}
    (hreturned : .returned i op result ∈ s.world.log) : (M.code op).Yields result :=
  (h.consistent (consistent_initial files)).returned i op result hreturned

end Yields

end Files
