import Kageb.Lib.Files

/-! Rely and guarantee for calls that share files: if every call keeps an invariant, and does to
the files only what a holder of other locks can rely on, then the invariant holds in every state
that any interleaving of the calls reaches. -/

namespace Files

variable {F L B : Type} [DecidableEq F] [DecidableEq L]

/-- An invariant, and what a call that holds some locks can rely on while the others run. -/
structure Discipline (M : Machine F L B) where
  valid : World M → Prop
  rely : Nat → Finset L → World M → World M → Prop
  refl : ∀ i held w, rely i held w w
  trans : ∀ {i held u v w}, rely i held u v → rely i held v w → rely i held u w

variable {M : Machine F L B} (D : Discipline M)

namespace Discipline

/-- What call `i` may do to the world when its locks change from `held` to `held'`. -/
structure Keeps (i : Nat) (held held' : Finset L) (w w' : World M) : Prop where
  valid : D.valid w'
  rely : ∀ j locks, j ≠ i → Disjoint locks held → Disjoint locks held' → D.rely j locks w w'

/-- Call `i` keeps the discipline from world `w` on, and ends in `post`. -/
def Safe (i : Nat) (op : M.Op) {α : Type} (post : α → Finset L → World M → Prop) :
    Call F L B α → Finset L → World M → Prop
  | .done a, held, w => post a held w
  | .request r next, held, w => ∀ now a held' w', D.valid now → D.rely i held w now →
      Answers i op held now r a held' w' →
      D.Keeps i held held' now w' ∧ Safe i op post (next a) held' w'

variable {D} {i : Nat} {op : M.Op} {α γ ε : Type} {held : Finset L} {w : World M}

omit [DecidableEq F] [DecidableEq L] in
theorem Keeps.same {now : World M} {held' : Finset L} (h : D.valid now) :
    D.Keeps i held held' now now :=
  ⟨h, fun j locks _ _ _ => D.refl j locks now⟩

/-! ### Rules -/

theorem Safe.mono {post post' : α → Finset L → World M → Prop} {c : Call F L B α}
    (h : D.Safe i op post c held w)
    (hpost : ∀ a held w, post a held w → post' a held w) : D.Safe i op post' c held w := by
  induction c generalizing held w with
  | done a => exact hpost a held w h
  | request r next ih =>
    intro now a held' w' hvalid hrely hanswer
    obtain ⟨hkeeps, hnext⟩ := h now a held' w' hvalid hrely hanswer
    exact ⟨hkeeps, ih a hnext⟩

theorem safe_bind {post : γ → Finset L → World M → Prop} {c : Call F L B α}
    {f : α → Call F L B γ} : D.Safe i op post (c.bind f) held w ↔
      D.Safe i op (fun a held w => D.Safe i op post (f a) held w) c held w := by
  induction c generalizing held w with
  | done a => exact Iff.rfl
  | request r next ih => simp only [Call.bind, Safe, ih]

/-- What follows a call that can fail: its success goes on, its error is returned. -/
def onOk (ok : α → Finset L → World M → Prop) (error : ε → Finset L → World M → Prop) :
    Except ε α → Finset L → World M → Prop
  | .ok a => ok a
  | .error e => error e

theorem safe_run_bind {post : Except ε γ → Finset L → World M → Prop}
    {x : ExceptT ε (Call F L B) α} {f : α → ExceptT ε (Call F L B) γ} :
    D.Safe i op post (x >>= f).run held w ↔
      D.Safe i op (onOk (fun a held w => D.Safe i op post (f a).run held w)
        fun e held w => post (.error e) held w) x.run held w := by
  have hrun : (x >>= f).run = x.run.bind (ExceptT.bindCont f) := rfl
  have hpost : (fun r held w => D.Safe i op post (ExceptT.bindCont f r) held w) =
      onOk (fun a held w => D.Safe i op post (f a).run held w)
        fun e held w => post (.error e) held w := by
    funext r
    cases r <;> rfl
  rw [hrun, safe_bind, hpost]

theorem safe_lift {post : Except ε α → Finset L → World M → Prop} {x : Except ε α} :
    D.Safe i op post (Call.lift x).run held w ↔ post x held w := Iff.rfl

theorem safe_adapt {ε' : Type} {post : Except ε' α → Finset L → World M → Prop}
    {x : ExceptT ε (Call F L B) α} {f : ε → ε'} :
    D.Safe i op post (ExceptT.adapt f x).run held w ↔
      D.Safe i op (fun r held w => post (r.mapError f) held w) x.run held w := by
  have hrun : (ExceptT.adapt f x).run = x.run.bind fun r => .done (r.mapError f) := rfl
  rw [hrun, safe_bind]
  rfl

theorem safe_inner {post : Except ε α → Finset L → World M → Prop} {c : Call F L B α} :
    D.Safe i op post (Call.inner c).run held w ↔
      D.Safe i op (fun a held w => post (.ok a) held w) c held w := safe_bind

theorem safe_guarded {post : Except ε α → Finset L → World M → Prop} {lock : L}
    {refused : Acquired → Option ε} {body : ExceptT ε (Call F L B) α}
    (hlocked : ∀ acquired, refused acquired = none ↔ acquired = .locked)
    (hrefused : ∀ acquired e, refused acquired = some e → ∀ now, D.valid now →
      D.rely i held w now → post (.error e) held now)
    (hbody : ∀ now, lock ∉ held → D.valid now → D.rely i held w now →
      D.Safe i op (fun result held w => ∀ now, D.valid now → D.rely i held w now →
        post result (held.erase lock) now) body.run (insert lock held) now) :
    D.Safe i op post (Call.guarded lock refused body).run held w := by
  intro now acquired held' w' hvalid hrely hanswer
  cases acquired with
  | locked =>
    obtain ⟨hfresh, rfl, rfl⟩ := hanswer
    refine ⟨Keeps.same hvalid, ?_⟩
    simp only [(hlocked .locked).mpr rfl, safe_bind]
    refine (hbody _ hfresh hvalid hrely).mono fun result held w hpost => ?_
    intro later answer free w' hlater hrelies hreleased
    obtain ⟨rfl, rfl⟩ := hreleased
    exact ⟨Keeps.same hlater, hpost _ hlater hrelies⟩
  | busy =>
    obtain ⟨rfl, rfl⟩ := hanswer
    obtain ⟨e, he⟩ := Option.ne_none_iff_exists'.mp (mt (hlocked .busy).mp (by simp))
    simp only [he]
    exact ⟨Keeps.same hvalid, hrefused _ e he _ hvalid hrely⟩
  | failed kind =>
    obtain ⟨rfl, rfl⟩ := hanswer
    obtain ⟨e, he⟩ := Option.ne_none_iff_exists'.mp
      (mt (hlocked (.failed kind)).mp (by simp))
    simp only [he]
    exact ⟨Keeps.same hvalid, hrefused _ e he _ hvalid hrely⟩

theorem safe_isThere {post : Except ε Bool → Finset L → World M → Prop} {file : F}
    (h : ∀ now, D.valid now → D.rely i held w now →
      post (.ok (now.files file).isSome) held now) :
    D.Safe i op post (Call.isThere file).run held w := by
  intro now answer held' w' hvalid hrely hanswer
  obtain ⟨rfl, rfl, rfl⟩ := hanswer
  exact ⟨Keeps.same hvalid, h _ hvalid hrely⟩

theorem safe_read {post : Except ErrorKind (List B) → Finset L → World M → Prop} {file : F}
    (hok : ∀ now content, D.valid now → D.rely i held w now → now.files file = some content →
      post (.ok content) held now)
    (herror : ∀ now kind, D.valid now → D.rely i held w now → post (.error kind) held now) :
    D.Safe i op post (Call.attempt (.read file)).run held w := by
  intro now answer held' w' hvalid hrely hanswer
  cases answer with
  | ok content =>
    obtain ⟨hcontent, rfl, rfl⟩ := hanswer
    exact ⟨Keeps.same hvalid, hok _ content hvalid hrely hcontent⟩
  | error kind =>
    obtain ⟨rfl, rfl⟩ := hanswer
    exact ⟨Keeps.same hvalid, herror _ kind hvalid hrely⟩

theorem safe_persist {post : Except ErrorKind Unit → Finset L → World M → Prop} {file : F}
    {content : List B}
    (hwrite : ∀ now, D.valid now → D.rely i held w now →
      D.Keeps i held held now (now.write i op file content))
    (hafter : ∀ now later result, D.valid now → D.rely i held w now → D.valid later →
      D.rely i held (now.write i op file content) later → post result held later)
    (herror : ∀ now kind, D.valid now → D.rely i held w now → post (.error kind) held now) :
    D.Safe i op post (Call.persist file content).run held w := by
  rw [Call.persist, safe_run_bind]
  intro now answer held' w' hvalid hrely hanswer
  cases answer with
  | ok =>
    obtain ⟨rfl, rfl⟩ := hanswer
    refine ⟨hwrite now hvalid hrely, ?_⟩
    intro later result held' w' hlater hrelies hsync
    obtain ⟨rfl, rfl⟩ := hsync
    exact ⟨Keeps.same hlater, hafter now _ result hvalid hrely hlater hrelies⟩
  | error kind =>
    obtain ⟨rfl, rfl⟩ := hanswer
    exact ⟨Keeps.same hvalid, herror _ kind hvalid hrely⟩

theorem safe_sync {post : Except ErrorKind Unit → Finset L → World M → Prop}
    (h : ∀ now result, D.valid now → D.rely i held w now → post result held now) :
    D.Safe i op post (Call.attempt .sync).run held w := by
  intro now answer held' w' hvalid hrely hanswer
  obtain ⟨rfl, rfl⟩ := hanswer
  exact ⟨Keeps.same hvalid, h _ _ hvalid hrely⟩

theorem safe_create {post : Except ErrorKind Unit → Finset L → World M → Prop} {file : F}
    (hwrite : ∀ now, D.valid now → D.rely i held w now → now.files file = none →
      D.Keeps i held held now (now.write i op file []) ∧
      post (.ok ()) held (now.write i op file []))
    (herror : ∀ now kind, D.valid now → D.rely i held w now → post (.error kind) held now) :
    D.Safe i op post (Call.attempt (.create file)).run held w := by
  intro now answer held' w' hvalid hrely hanswer
  cases answer with
  | ok =>
    obtain ⟨hnone, rfl, rfl⟩ := hanswer
    exact hwrite _ hvalid hrely hnone
  | error kind =>
    obtain ⟨rfl, rfl⟩ := hanswer
    exact ⟨Keeps.same hvalid, herror _ kind hvalid hrely⟩

/-- What holds of the world, whatever others do and whatever is appended, holds at the end. -/
theorem safe_appendAll {P : World M → Prop} {file : F} {units : List B} (hw : P w)
    (hrely : ∀ w now, D.valid now → D.rely i held w now → P w → P now)
    (hwrite : ∀ now content, D.valid now → P now → (now.files file).isSome →
      D.Keeps i held held now (now.write i op file content) ∧ P (now.write i op file content)) :
    D.Safe i op (fun _ held' w => held' = held ∧ P w) (Call.appendAll file units).run held w := by
  induction units generalizing w with
  | nil => exact ⟨rfl, hw⟩
  | cons unit units ih =>
    rw [Call.appendAll, safe_run_bind]
    intro now answer held' w' hvalid hrelies hanswer
    have hnow := hrely w now hvalid hrelies hw
    cases answer with
    | ok =>
      obtain ⟨rfl, rfl⟩ := hanswer
      cases hfile : now.files file with
      | none => exact ⟨Keeps.same hvalid, ih hnow⟩
      | some content =>
        obtain ⟨hkeeps, hpost⟩ := hwrite now (content ++ [unit]) hvalid hnow (by simp [hfile])
        exact ⟨hkeeps, ih hpost⟩
    | error kind =>
      obtain ⟨rfl, rfl⟩ := hanswer
      exact ⟨Keeps.same hvalid, rfl, hnow⟩

/-! ### Rules for calls that give back the locks they take -/

variable (D) in
/-- The world that call `i` may find when it next looks. -/
structure Later (i : Nat) (held : Finset L) (w now : World M) : Prop where
  valid : D.valid now
  rely : D.rely i held w now

omit [DecidableEq F] [DecidableEq L] in
theorem Later.refl (h : D.valid w) : D.Later i held w w := ⟨h, D.refl i held w⟩

omit [DecidableEq F] [DecidableEq L] in
theorem Later.trans {now later : World M} (h : D.Later i held w now)
    (h' : D.Later i held now later) : D.Later i held w later :=
  ⟨h'.valid, D.trans h.rely h'.rely⟩

variable (D) in
/-- Call `i` keeps the discipline from world `w` on, and ends in `post` with the locks it began
with. -/
def Ends (i : Nat) (op : M.Op) {α : Type} (held : Finset L) (w : World M)
    (post : α → World M → Prop) (c : Call F L B α) : Prop :=
  D.Safe i op (fun a held' w' => held' = held ∧ post a w') c held w

theorem Ends.mono {post post' : α → World M → Prop} {c : Call F L B α}
    (h : D.Ends i op held w post c) (hpost : ∀ a w', post a w' → post' a w') :
    D.Ends i op held w post' c :=
  Safe.mono h fun a _ w' ⟨hheld, ha⟩ => ⟨hheld, hpost a w' ha⟩

theorem Ends.bind {x : ExceptT ε (Call F L B) α} {f : α → ExceptT ε (Call F L B) γ}
    {mid : Except ε α → World M → Prop} {post : Except ε γ → World M → Prop}
    (hx : D.Ends i op held w mid x.run)
    (hok : ∀ a w', mid (.ok a) w' → D.Ends i op held w' post (f a).run)
    (herror : ∀ e w', mid (.error e) w' → post (.error e) w') :
    D.Ends i op held w post (x >>= f).run := by
  rw [Ends, safe_run_bind]
  refine Safe.mono hx fun result held' w' ⟨hheld, hmid⟩ => ?_
  cases result with
  | ok a => exact hheld ▸ hok a w' hmid
  | error e => exact ⟨hheld, herror e w' hmid⟩

theorem ends_lift {post : Except ε α → World M → Prop} {x : Except ε α} (h : post x w) :
    D.Ends i op held w post (Call.lift x).run := ⟨rfl, h⟩

theorem ends_lift_bind {x : Except ε α} {f : α → ExceptT ε (Call F L B) γ}
    {post : Except ε γ → World M → Prop}
    (hok : ∀ a, x = .ok a → D.Ends i op held w post (f a).run)
    (herror : ∀ e, x = .error e → post (.error e) w) :
    D.Ends i op held w post (Call.lift x >>= f).run := by
  cases x with
  | ok a => exact hok a rfl
  | error e => exact ⟨rfl, herror e rfl⟩

theorem ends_adapt {ε' : Type} {post : Except ε' α → World M → Prop}
    {x : ExceptT ε (Call F L B) α} {f : ε → ε'}
    (h : D.Ends i op held w (fun r w' => post (r.mapError f) w') x.run) :
    D.Ends i op held w post (ExceptT.adapt f x).run := safe_adapt.mpr h

theorem ends_inner_bind {c : Call F L B α} {f : α → ExceptT ε (Call F L B) γ}
    {mid : α → World M → Prop} {post : Except ε γ → World M → Prop}
    (hc : D.Ends i op held w mid c) (hf : ∀ a w', mid a w' → D.Ends i op held w' post (f a).run) :
    D.Ends i op held w post (Call.inner c >>= f).run := by
  rw [Ends, safe_run_bind, safe_inner]
  exact Safe.mono hc fun a held' w' ⟨hheld, hmid⟩ => hheld ▸ hf a w' hmid

theorem ends_isThere {file : F} : D.Ends i op held w
    (fun (r : Except ε Bool) w' => D.Later i held w w' ∧ r = .ok (w'.files file).isSome)
    (Call.isThere file).run :=
  safe_isThere fun _ hvalid hrely => ⟨rfl, ⟨hvalid, hrely⟩, rfl⟩

theorem ends_read {file : F} : D.Ends i op held w (fun r w' => D.Later i held w w' ∧
      ∀ content, r = .ok content → w'.files file = some content)
    (Call.attempt (.read file)).run := by
  refine safe_read (fun now content hvalid hrely hcontent => ⟨rfl, ⟨hvalid, hrely⟩, ?_⟩)
    fun now kind hvalid hrely => ⟨rfl, ⟨hvalid, hrely⟩, ?_⟩
  · rintro _ ⟨⟩
    exact hcontent
  · rintro _ ⟨⟩

/-- A replacement takes place at some moment, or it does not and an error says so. -/
theorem ends_persist {file : F} {content : List B}
    (hwrite : ∀ now, D.Later i held w now →
      D.Keeps i held held now (now.write i op file content)) :
    D.Ends i op held w (fun r w' => (r ≠ .ok () ∧ D.Later i held w w') ∨
      ∃ now, D.Later i held w now ∧ D.Later i held (now.write i op file content) w')
    (Call.persist file content).run := by
  refine safe_persist (fun now hvalid hrely => hwrite now ⟨hvalid, hrely⟩)
    (fun now later result hvalid hrely hlater hrelies => ⟨rfl, Or.inr ?_⟩)
    fun now kind hvalid hrely => ⟨rfl, Or.inl ⟨by simp, hvalid, hrely⟩⟩
  exact ⟨now, ⟨hvalid, hrely⟩, hlater, hrelies⟩

theorem ends_guarded {lock : L} {refused : Acquired → Option ε} {body : ExceptT ε (Call F L B) α}
    {post : Except ε α → World M → Prop}
    (hlocked : ∀ acquired, refused acquired = none ↔ acquired = .locked)
    (hrefused : ∀ acquired e now, refused acquired = some e → D.Later i held w now →
      post (.error e) now)
    (hbody : ∀ now, lock ∉ held → D.Later i held w now →
      D.Ends i op (insert lock held) now
        (fun r w' => ∀ later, D.Later i (insert lock held) w' later → post r later) body.run) :
    D.Ends i op held w post (Call.guarded lock refused body).run := by
  refine safe_guarded hlocked
    (fun acquired e he now hvalid hrely => ⟨rfl, hrefused acquired e now he ⟨hvalid, hrely⟩⟩)
    fun now hfresh hvalid hrely => ?_
  refine Safe.mono (hbody now hfresh ⟨hvalid, hrely⟩) fun r held' w' ⟨hheld, hpost⟩ => ?_
  subst hheld
  exact fun later hlater hrelies => ⟨Finset.erase_insert hfresh, hpost later ⟨hlater, hrelies⟩⟩

theorem ends_guarded_of_any {lock : L} {refused : Acquired → Option ε}
    {body : ExceptT ε (Call F L B) α}
    (hlocked : ∀ acquired, refused acquired = none ↔ acquired = .locked)
    (hbody : ∀ now, D.Later i held w now →
      D.Ends i op (insert lock held) now (fun _ _ => True) body.run) :
    D.Ends i op held w (fun _ _ => True) (Call.guarded lock refused body).run :=
  ends_guarded hlocked (fun _ _ _ _ _ => trivial)
    fun now _ hnow => (hbody now hnow).mono fun _ _ _ _ _ => trivial

/-! ### Every interleaving -/

variable (D) in
/-- The call can return at any moment. -/
def Finishes (i : Nat) (op : M.Op) (result : M.Result op) (held : Finset L) (w : World M) : Prop :=
  ∀ now, D.valid now → D.rely i held w now → D.Keeps i held ∅ now (now.note (.returned i op result))

variable (D) in
/-- Every call keeps the discipline from a valid world on, and so does the removal of a file. -/
structure Obeyed : Prop where
  start : ∀ {w : World M} {i : Nat} (op : M.Op), D.valid w → (∀ e ∈ w.log, e.call ≠ some i) →
    D.Keeps i ∅ ∅ w (w.note (.started i op)) ∧
      D.Safe i op (D.Finishes i op) (M.code op) ∅ (w.note (.started i op))
  remove : ∀ {w : World M} {file : F}, D.valid w → M.removable file →
    D.valid (w.remove file) ∧ ∀ i held, D.rely i held w (w.remove file)

variable (D) in
structure AllSafe (s : State M) : Prop where
  valid : D.valid s.world
  events : ∀ e ∈ s.world.log, ∀ i, e.call = some i → i < s.next
  started : ∀ i x, s.calls i = some x → i < s.next
  disjoint : ∀ i j, i ≠ j → Disjoint (s.held i) (s.held j)
  safe : ∀ i op c, s.calls i = some ⟨op, c⟩ →
    ∃ w, D.Safe i op (D.Finishes i op) c (s.held i) w ∧ D.rely i (s.held i) w s.world

theorem allSafe_initial {files : F → Option (List B)} (h : D.valid ⟨files, []⟩) :
    D.AllSafe (State.initial L files : State M) where
  valid := h
  events := by simp [State.initial]
  started := by simp [State.initial]
  disjoint := by simp [State.initial]
  safe := by simp [State.initial]

/-- A move of call `i` that keeps the discipline leaves every call safe. -/
theorem AllSafe.set {s : State M} (h : D.AllSafe s) {w' : World M} {held' : Finset L}
    {call : Option (Σ op : M.Op, Call F L B (M.Result op))}
    (hlog : w'.log = s.world.log ∨ ∃ e : Event M, e.call = some i ∧ w'.log = e :: s.world.log)
    (hkeeps : D.Keeps i (s.held i) held' s.world w')
    (hdisjoint : ∀ j, j ≠ i → Disjoint (s.held j) held')
    (hcall : ∀ op c, call = some ⟨op, c⟩ →
      ∃ w, D.Safe i op (D.Finishes i op) c held' w ∧ D.rely i held' w w') :
    D.AllSafe (s.set i w' call held') where
  valid := hkeeps.valid
  events e he j hj := by
    rcases hlog with hlog | ⟨e', he', hlog⟩
    · exact lt_max_of_lt_left (h.events e (hlog ▸ he) j hj)
    · have he : e ∈ e' :: s.world.log := hlog ▸ he
      rcases List.mem_cons.mp he with rfl | he
      · cases he'.symm.trans hj
        exact lt_max_of_lt_right (Nat.lt_succ_self i)
      · exact lt_max_of_lt_left (h.events e he j hj)
  started j x hx := by
    by_cases hj : j = i
    · exact hj ▸ lt_max_of_lt_right (Nat.lt_succ_self j)
    · simp only [State.set, Function.update_of_ne hj] at hx
      exact lt_max_of_lt_left (h.started j x hx)
  disjoint j k hjk := by
    by_cases hj : j = i
    · subst hj
      simp only [State.set, Function.update_self, Function.update_of_ne hjk.symm]
      exact (hdisjoint k hjk.symm).symm
    · by_cases hk : k = i
      · subst hk
        simp only [State.set, Function.update_self, Function.update_of_ne hj]
        exact hdisjoint j hj
      · simp only [State.set, Function.update_of_ne hj, Function.update_of_ne hk]
        exact h.disjoint j k hjk
  safe j op c hc := by
    by_cases hj : j = i
    · subst hj
      simp only [State.set, Function.update_self] at hc ⊢
      exact hcall op c hc
    · simp only [State.set, Function.update_of_ne hj] at hc ⊢
      obtain ⟨w, hsafe, hrely⟩ := h.safe j op c hc
      exact ⟨w, hsafe, D.trans hrely
        (hkeeps.rely j (s.held j) hj (h.disjoint j i hj) (hdisjoint j hj))⟩

theorem AllSafe.step (obeyed : D.Obeyed) {s s' : State M} (h : D.AllSafe s) (hstep : Step s s') :
    D.AllSafe s' := by
  cases hstep with
  | start op =>
    have hfresh : ∀ e ∈ s.world.log, e.call ≠ some s.next := fun e he heq =>
      absurd (h.events e he _ heq) (lt_irrefl _)
    obtain ⟨hkeeps, hsafe⟩ := obeyed.start op h.valid hfresh
    refine h.set (Or.inr ⟨_, rfl, rfl⟩) ⟨hkeeps.valid, fun j locks hj _ _ => ?_⟩ (by simp) ?_
    · exact hkeeps.rely j locks hj (by simp) (by simp)
    · rintro op' c ⟨⟩
      exact ⟨_, hsafe, D.refl _ _ _⟩
  | answer hcall hanswer hdisjoint =>
    obtain ⟨seen, hsafe, hrely⟩ := h.safe _ _ _ hcall
    obtain ⟨hkeeps, hnext⟩ := hsafe _ _ _ _ h.valid hrely hanswer
    refine h.set ((answers_events hanswer).imp_right fun ⟨_, _, _, hlog⟩ => ⟨_, rfl, hlog⟩) hkeeps
      hdisjoint ?_
    rintro op' c ⟨⟩
    exact ⟨_, hnext, D.refl _ _ _⟩
  | finish hcall =>
    obtain ⟨seen, hsafe, hrely⟩ := h.safe _ _ _ hcall
    exact h.set (Or.inr ⟨_, rfl, rfl⟩) (hsafe _ h.valid hrely) (by simp) (by simp)
  | crash hcall => exact h.set (Or.inl rfl) (Keeps.same h.valid) (by simp) (by simp)
  | remove hremovable =>
    obtain ⟨hvalid, hrely⟩ := obeyed.remove h.valid hremovable
    refine ⟨hvalid, ?_, h.started, h.disjoint, ?_⟩
    · intro e he j hj
      rcases List.mem_cons.mp he with rfl | he
      · cases hj
      · exact h.events e he j hj
    · intro j op c hc
      obtain ⟨w, hsafe, hrelies⟩ := h.safe j op c hc
      exact ⟨w, hsafe, D.trans hrelies (hrely j _)⟩

/-- A discipline that every call keeps holds in every state that is reached. -/
theorem AllSafe.reaches (obeyed : D.Obeyed) {s s' : State M} (h : D.AllSafe s)
    (hreaches : Reaches s s') : D.AllSafe s' := by
  induction hreaches with
  | refl => exact h
  | tail _ hstep ih => exact ih.step obeyed hstep

end Discipline

end Files
