import Kageb.Lib.Discipline
import Kageb.Lib.History

/-! A file that calls read and replace under one lock. A journal says what states the file stands
for and what a call may make of a state; every run obeys that, so that the file can always be read
back, and a call that holds the lock sees nobody else write. -/

namespace Files

/-- A file with its lock, the states that it holds, what a call may do to them, and what an answer
says of the events before it. -/
structure Journal {F L B : Type} (M : Machine F L B) (S ε : Type) where
  file : F
  lock : L
  empty : S
  decode : List B → Except ε S
  encode : S → Except ε (List B)
  Valid : S → Prop
  step : S → M.Op → S → Prop
  told : List (Event M) → Nat → (op : M.Op) → M.Result op → Prop
  valid_empty : Valid empty
  decode_encode : ∀ {s : S} {bytes : List B}, Valid s → encode s = .ok bytes → decode bytes = .ok s
  valid_step : ∀ {s s' : S} {op : M.Op}, Valid s → step s op s' → Valid s'
  told_suffix : ∀ {older newer : List (Event M)} {i : Nat} {op : M.Op} {result : M.Result op},
    told older i op result → older <:+ newer → told newer i op result

namespace Journal

variable {F L B S ε : Type} {M : Machine F L B} (J : Journal M S ε)

/-- The state in the bytes of the file, if there is one. -/
def stateIn (content : Option (List B)) : S :=
  (content.bind fun bytes => (J.decode bytes).toOption).getD J.empty

variable [DecidableEq F]

/-- What the events of a log have left in the file. There is no file at the beginning. -/
def stateAfter (log : List (Event M)) : S := J.stateIn (contentOf (fun _ => none) log J.file)

/-- Calls write to no other file, and nobody removes one. -/
def Law (older : List (Event M)) : Event M → Prop
  | .started _ _ => True
  | .wrote _ op file _ new => file = J.file ∧
      ∃ s, J.encode s = .ok new ∧ J.step (J.stateAfter older) op s
  | .returned i op result => J.told older i op result
  | .removed _ => False

variable {J} {log : List (Event M)} {i : Nat} {op : M.Op}

omit [DecidableEq F] in
theorem stateIn_encode {s : S} {bytes : List B} (hs : J.Valid s) (h : J.encode s = .ok bytes) :
    J.stateIn (some bytes) = s := by
  rw [stateIn, Option.bind_some, J.decode_encode hs h]
  rfl

theorem stateAfter_wrote {s : S} {old : Option (List B)} {new : List B} (hs : J.Valid s)
    (h : J.encode s = .ok new) : J.stateAfter (.wrote i op J.file old new :: log) = s := by
  rw [stateAfter, contentOf, Function.update_self]
  exact stateIn_encode hs h

/-- What is in the file is what is read from it. -/
theorem legible_of_lawful (h : Lawful J.Law log) : J.Valid (J.stateAfter log) ∧
    ∀ bytes, contentOf (fun _ => none) log J.file = some bytes →
      J.decode bytes = .ok (J.stateAfter log) := by
  induction log with
  | nil => exact ⟨J.valid_empty, nofun⟩
  | cons event log ih =>
    obtain ⟨hevent, hlog⟩ := h
    cases event with
    | started i op => exact ih hlog
    | returned i op result => exact ih hlog
    | removed file => exact hevent.elim
    | wrote i op file old new =>
      obtain ⟨rfl, s, hnew, hstep⟩ := hevent
      have hs := J.valid_step (ih hlog).1 hstep
      rw [stateAfter_wrote hs hnew]
      refine ⟨hs, fun bytes hbytes => ?_⟩
      rw [contentOf, Function.update_self] at hbytes
      cases hbytes
      exact J.decode_encode hs hnew

/-- A write does to the state what its call may do. -/
theorem step_of_wrote {old : Option (List B)} {new : List B}
    (h : Lawful J.Law (.wrote i op J.file old new :: log)) :
    J.step (J.stateAfter log) op (J.stateAfter (.wrote i op J.file old new :: log)) := by
  obtain ⟨⟨-, s, hnew, hstep⟩, hlog⟩ := h
  rwa [stateAfter_wrote (J.valid_step (legible_of_lawful hlog).1 hstep) hnew]

/-- One event does nothing to the state, or what its call may do. -/
theorem stateAfter_cons {event : Event M} (h : Lawful J.Law (event :: log)) :
    J.stateAfter (event :: log) = J.stateAfter log ∨
      ∃ i op old new, event = .wrote i op J.file old new ∧
        J.step (J.stateAfter log) op (J.stateAfter (event :: log)) := by
  cases event with
  | started i op => exact .inl rfl
  | returned i op result => exact .inl rfl
  | removed file => exact h.1.elim
  | wrote i op file old new =>
    obtain rfl := h.1.1
    exact .inr ⟨i, op, old, new, rfl, step_of_wrote h⟩

/-- What every step keeps of a state, a run keeps. -/
theorem keeps_suffix {R : S → S → Prop} (hrefl : ∀ s, R s s)
    (htrans : ∀ {s s' s''}, R s s' → R s' s'' → R s s'')
    (hstep : ∀ {s s' op}, J.Valid s → J.step s op s' → R s s') (h : Lawful J.Law log)
    {older : List (Event M)} (hsuffix : older <:+ log) :
    R (J.stateAfter older) (J.stateAfter log) := by
  induction log with
  | nil => exact List.suffix_nil.mp hsuffix ▸ hrefl _
  | cons event log ih =>
    rcases List.suffix_cons_iff.mp hsuffix with rfl | hsuffix
    · exact hrefl _
    · refine htrans (ih h.2 hsuffix) ?_
      rcases stateAfter_cons h with hsame | ⟨-, op, -, -, -, hnext⟩
      · exact hsame ▸ hrefl _
      · exact hstep (legible_of_lawful h.2).1 hnext

/-! ### The discipline -/

variable (J) in
structure Sound (w : World M) : Prop where
  lawful : Lawful J.Law w.log
  files : w.files = contentOf (fun _ => none) w.log

variable (J) in
/-- The log grows, and the file stays as it is while the lock is held. -/
structure Rely (held : Finset L) (w w' : World M) : Prop where
  log : w.log <:+ w'.log
  file : J.lock ∈ held → w'.files J.file = w.files J.file

variable (J) in
def discipline : Discipline M where
  valid := J.Sound
  rely _ := J.Rely
  refl _ _ _ := ⟨List.suffix_refl _, fun _ => rfl⟩
  trans h h' := ⟨h.log.trans h'.log, fun hheld => (h'.file hheld).trans (h.file hheld)⟩

open Discipline

variable {held : Finset L} {w now : World M}

theorem Sound.stateAfter (h : J.Sound w) : J.stateAfter w.log = J.stateIn (w.files J.file) := by
  rw [Journal.stateAfter, h.files]

/-- Nobody else writes while the lock is held. -/
theorem later_state (h : J.discipline.Later i held w now) (hw : J.Sound w) (hheld : J.lock ∈ held) :
    J.stateAfter now.log = J.stateAfter w.log := by
  rw [h.valid.stateAfter, hw.stateAfter, h.rely.file hheld]

theorem keeps_note {event : Event M} {held' : Finset L} (hw : J.Sound w)
    (hfiles : contentOf (fun _ => none) (event :: w.log) = contentOf (fun _ => none) w.log)
    (hlaw : J.Law w.log event) : J.discipline.Keeps i held held' w (w.note event) where
  valid := ⟨⟨hlaw, hw.lawful⟩, hw.files.trans hfiles.symm⟩
  rely _ _ _ _ _ := ⟨List.suffix_cons _ _, fun _ => rfl⟩

theorem keeps_write {s : S} {new : List B} (hw : J.Sound w) (hheld : J.lock ∈ held)
    (hnew : J.encode s = .ok new) (hstep : J.step (J.stateAfter w.log) op s) :
    J.discipline.Keeps i held held w (w.write i op J.file new) where
  valid := ⟨⟨⟨rfl, s, hnew, hstep⟩, hw.lawful⟩, by rw [World.write, hw.files]; rfl⟩
  rely j locks _ hlocks _ := ⟨List.suffix_cons _ _,
    fun hmem => absurd hheld (Finset.disjoint_left.mp hlocks hmem)⟩

/-- The call has put down a state that it may make of the one before. -/
def Stored (J : Journal M S ε) (i : Nat) (op : M.Op) (s : S) (log : List (Event M)) : Prop :=
  ∃ during, during <:+ log ∧ J.stateAfter during = s ∧ ∃ old new, .wrote i op J.file old new ∈ during

theorem Stored.suffix {s : S} {newer : List (Event M)} (h : J.Stored i op s log)
    (hsuffix : log <:+ newer) : J.Stored i op s newer := by
  obtain ⟨during, hduring, hrest⟩ := h
  exact ⟨during, hduring.trans hsuffix, hrest⟩

/-! ### Rules -/

variable [DecidableEq L]

theorem ends_load {io : ErrorKind → ε} : J.discipline.Ends i op held w
    (fun r w' => J.discipline.Later i held w w' ∧ ∀ s, r = .ok s → s = J.stateAfter w'.log)
    (do
      let bytes ← ExceptT.adapt io (Call.attempt (.read J.file))
      Call.lift (J.decode bytes) : ExceptT ε (Call F L B) S).run := by
  have hread : J.discipline.Ends i op held w
      (fun r w' => J.discipline.Later i held w w' ∧
        ∀ content, r = .ok content → w'.files J.file = some content)
      (ExceptT.adapt io (Call.attempt (.read J.file))).run := by
    refine ends_adapt (ends_read.mono fun r w' ⟨hlater, hr⟩ => ⟨hlater, fun content hcontent => ?_⟩)
    cases r with
    | ok content' =>
      cases hcontent
      exact hr content rfl
    | error kind => cases hcontent
  refine hread.bind (fun content w' ⟨hlater, hcontent⟩ => ends_lift ⟨hlater, fun s hs => ?_⟩)
    fun e w' ⟨hlater, _⟩ => ⟨hlater, nofun⟩
  have hbytes := hcontent content rfl
  rw [hlater.valid.files] at hbytes
  exact Except.ok.inj (hs.symm.trans ((legible_of_lawful hlater.valid.lawful).2 content hbytes))

/-- Under the lock, a state that the call may make of the current one is written, or not. -/
theorem ends_store {io : ErrorKind → ε} {s : S} (hw : J.Sound w) (hheld : J.lock ∈ held)
    (hstep : J.step (J.stateAfter w.log) op s) : J.discipline.Ends i op held w
      (fun r w' => J.Sound w' ∧ w.log <:+ w'.log ∧ ∀ u, r = .ok u → J.stateAfter w'.log = s ∧
        ∃ old new, .wrote i op J.file old new ∈ w'.log)
      (do
        let bytes ← Call.lift (J.encode s)
        ExceptT.adapt io (Call.persist J.file bytes) : ExceptT ε (Call F L B) Unit).run := by
  refine ends_lift_bind (fun new hnew => ends_adapt ?_)
    fun e he => ⟨hw, List.suffix_refl _, nofun⟩
  have hsame : ∀ now, J.discipline.Later i held w now → J.step (J.stateAfter now.log) op s :=
    fun now hnow => (later_state hnow hw hheld).symm ▸ hstep
  have hpersist := @ends_persist _ _ _ _ _ _ J.discipline i op held w J.file new
    fun now hnow => keeps_write hnow.valid hheld hnew (hsame now hnow)
  refine hpersist.mono fun r w' hr => ?_
  rcases hr with ⟨hfailed, hlater⟩ | ⟨now, hnow, hlater⟩
  · refine ⟨hlater.valid, hlater.rely.log, fun u hu => ?_⟩
    cases r with
    | ok => exact absurd rfl hfailed
    | error kind => cases hu
  · have hwritten : J.Sound (now.write i op J.file new) :=
      (keeps_write (i := i) hnow.valid hheld hnew (hsame now hnow)).valid
    have hs := J.valid_step (legible_of_lawful hnow.valid.lawful).1 (hsame now hnow)
    refine ⟨hlater.valid, ?_, fun u _ => ⟨?_, _, _, hlater.rely.log.mem List.mem_cons_self⟩⟩
    · exact (hnow.rely.log.trans (List.suffix_cons _ _)).trans hlater.rely.log
    · exact (later_state hlater hwritten hheld).trans (stateAfter_wrote hs hnew)

/-- A call that loads the state, changes it and writes it, all under the lock. -/
theorem ends_update {io : ErrorKind → ε} {refused : Acquired → Option ε}
    (hlocked : ∀ acquired, refused acquired = none ↔ acquired = .locked)
    {operation : S → Except ε S}
    (hstep : ∀ s s', J.Valid s → operation s = .ok s' → J.step s op s') :
    J.discipline.Ends i op held w
      (fun r w' => ∀ u, r = .ok u → ∃ s s', operation s = .ok s' ∧ J.Stored i op s' w'.log)
      (Call.guarded J.lock refused (do
        let s ← (do
          let bytes ← ExceptT.adapt io (Call.attempt (.read J.file))
          Call.lift (J.decode bytes) : ExceptT ε (Call F L B) S)
        let s ← Call.lift (operation s)
        (do
          let bytes ← Call.lift (J.encode s)
          ExceptT.adapt io (Call.persist J.file bytes) : ExceptT ε (Call F L B) Unit))).run := by
  refine ends_guarded hlocked (fun _ _ _ _ _ => nofun) fun now _ hnow => ?_
  have hheld := Finset.mem_insert_self J.lock held
  refine ends_load.bind (fun s w₁ ⟨hw₁, hs⟩ => ?_) fun _ _ _ _ _ => nofun
  cases hs s rfl
  refine ends_lift_bind (fun s' hs' => ?_) fun _ _ _ _ => nofun
  have hvalid := (legible_of_lawful hw₁.valid.lawful).1
  refine (ends_store hw₁.valid hheld (hstep _ s' hvalid hs')).mono
    fun r w₂ ⟨_, _, hr⟩ later hlater u hu => ?_
  obtain ⟨hstate, hwrote⟩ := hr u hu
  exact ⟨_, s', hs', w₂.log, hlater.rely.log, hstate, hwrote⟩

/-- If every call keeps the discipline and says what it may, then so does every run. -/
theorem lawful_of_reaches (hremovable : ∀ file, ¬M.removable file)
    (hcode : ∀ {i : Nat} {w : World M} (op : M.Op), J.Sound w → .started i op ∈ w.log →
      J.discipline.Ends i op ∅ w (fun r w' => J.told w'.log i op r) (M.code op))
    {s : State M} (h : Reaches (State.initial L fun _ => none) s) : J.Sound s.world := by
  have hobeyed : J.discipline.Obeyed :=
    { start := fun {w i} op hvalid _ => by
        have hkeeps : J.discipline.Keeps i ∅ ∅ w (w.note (.started i op)) :=
          keeps_note hvalid rfl trivial
        have hends := hcode op hkeeps.valid List.mem_cons_self
        refine ⟨hkeeps, Safe.mono hends fun r held w' ⟨_, hr⟩ now hnow hrely => ?_⟩
        exact keeps_note hnow rfl (J.told_suffix hr hrely.log)
      remove := fun _ hfile => (hremovable _ hfile).elim }
  have hinitial : J.Sound (State.initial L fun _ => none : State M).world := ⟨trivial, rfl⟩
  exact (AllSafe.reaches hobeyed (allSafe_initial hinitial) h).valid

end Journal

end Files
