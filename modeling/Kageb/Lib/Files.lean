import Mathlib

/-! Calls of processes that share files: what a call asks of the file system, what it may be told,
and the runs of any number of calls that take turns, stop at any point and hold exclusive locks. -/

namespace Files

inductive ErrorKind where
  | notFound
  | alreadyExists
  | wouldBlock
  | other (code : UInt8)
  deriving DecidableEq

inductive Acquired where
  | locked
  | busy
  | failed (kind : ErrorKind)
  deriving DecidableEq

/-- What a call asks of the file system, and the type of the answer. -/
inductive Request (F L B : Type) : Type → Type 1 where
  | acquire (lock : L) : Request F L B Acquired
  | release (lock : L) : Request F L B Unit
  | present (file : F) : Request F L B Bool
  | read (file : F) : Request F L B (Except ErrorKind (List B))
  -- write a temporary file and rename it
  | replace (file : F) (content : List B) : Request F L B (Except ErrorKind Unit)
  -- create an empty file that must not exist yet
  | create (file : F) : Request F L B (Except ErrorKind Unit)
  | append (file : F) (unit : B) : Request F L B (Except ErrorKind Unit)
  -- make what was written durable
  | sync : Request F L B (Except ErrorKind Unit)

inductive Call (F L B : Type) (α : Type) : Type 1 where
  | done (a : α)
  | request {β : Type} (r : Request F L B β) (next : β → Call F L B α)

variable {F L B : Type}

namespace Call

variable {α γ ε : Type}

def bind (c : Call F L B α) (f : α → Call F L B γ) : Call F L B γ :=
  match c with
  | done a => f a
  | request r next => request r fun answer => (next answer).bind f

instance : Monad (Call F L B) where
  pure := done
  bind := bind

def ask {β : Type} (r : Request F L B β) : Call F L B β := request r done

/-- A request that can fail. -/
def attempt {β : Type} (r : Request F L B (Except ErrorKind β)) :
    ExceptT ErrorKind (Call F L B) β :=
  ExceptT.mk (ask r)

def lift (x : Except ε α) : ExceptT ε (Call F L B) α := ExceptT.mk (done x)

/-- Go on with what a call returns, be it an error. -/
def inner (c : Call F L B α) : ExceptT ε (Call F L B) α :=
  ExceptT.mk (c.bind fun a => done (.ok a))

def isThere (file : F) : ExceptT ε (Call F L B) Bool :=
  ExceptT.mk (request (.present file) fun answer => done (.ok answer))

/-- An error of the last step comes from a replacement that took place. -/
def persist (file : F) (content : List B) : ExceptT ErrorKind (Call F L B) Unit := do
  attempt (.replace file content)
  attempt .sync

/-- Write the units one by one, until one fails. -/
def appendAll (file : F) : List B → ExceptT ErrorKind (Call F L B) Unit
  | [] => lift (.ok ())
  | unit :: units => do
    attempt (.append file unit)
    appendAll file units

/-- Hold the lock while `body` runs, whether it succeeds or not. -/
def guarded (lock : L) (refused : Acquired → Option ε) (body : ExceptT ε (Call F L B) α) :
    ExceptT ε (Call F L B) α :=
  ExceptT.mk <| request (.acquire lock) fun acquired =>
    match refused acquired with
    | some e => done (.error e)
    | none => body.run.bind fun result => request (.release lock) fun _ => done result

end Call

/-- A program that uses files: what can be called, and which files someone else may remove. -/
structure Machine (F L B : Type) where
  Op : Type
  Result : Op → Type
  code : (op : Op) → Call F L B (Result op)
  removable : F → Prop

inductive Event (M : Machine F L B) where
  | started (call : Nat) (op : M.Op)
  | wrote (call : Nat) (op : M.Op) (file : F) (old : Option (List B)) (new : List B)
  | returned (call : Nat) (op : M.Op) (result : M.Result op)
  | removed (file : F)

def Event.call {M : Machine F L B} : Event M → Option Nat
  | started i _ => some i
  | wrote i _ _ _ _ => some i
  | returned i _ _ => some i
  | removed _ => none

/-- The files, and what has happened so far, the last event first. -/
structure World (M : Machine F L B) where
  files : F → Option (List B)
  log : List (Event M)

section

variable [DecidableEq F] [DecidableEq L] {M : Machine F L B}

namespace World

def note (w : World M) (event : Event M) : World M := { w with log := event :: w.log }

def write (w : World M) (i : Nat) (op : M.Op) (file : F) (content : List B) : World M where
  files := Function.update w.files file (some content)
  log := .wrote i op file (w.files file) content :: w.log

def remove (w : World M) (file : F) : World M where
  files := Function.update w.files file none
  log := .removed file :: w.log

end World

/-- What call `i`, which holds the locks `held`, may be told, and what becomes of its locks and of
the world. What is appended to a removed file is lost. -/
def Answers (i : Nat) (op : M.Op) (held : Finset L) (w : World M) {β : Type}
    (r : Request F L B β) (a : β) (held' : Finset L) (w' : World M) : Prop :=
  match r, a with
  | .acquire lock, .locked => lock ∉ held ∧ held' = insert lock held ∧ w' = w
  | .acquire _, .busy => held' = held ∧ w' = w
  | .acquire _, .failed _ => held' = held ∧ w' = w
  | .release lock, _ => held' = held.erase lock ∧ w' = w
  | .present file, answer => answer = (w.files file).isSome ∧ held' = held ∧ w' = w
  | .read file, .ok content => w.files file = some content ∧ held' = held ∧ w' = w
  | .read _, .error _ => held' = held ∧ w' = w
  | .replace file content, .ok _ => held' = held ∧ w' = w.write i op file content
  | .replace _ _, .error _ => held' = held ∧ w' = w
  | .create file, .ok _ => w.files file = none ∧ held' = held ∧ w' = w.write i op file []
  | .create _, .error _ => held' = held ∧ w' = w
  | .append file unit, .ok _ => held' = held ∧
      w' = ((w.files file).map fun content => w.write i op file (content ++ [unit])).getD w
  | .append _ _, .error _ => held' = held ∧ w' = w
  | .sync, _ => held' = held ∧ w' = w

/-- What a request adds to the log is a write of its call. -/
theorem answers_events {i : Nat} {op : M.Op} {held held' : Finset L} {w w' : World M} {β : Type}
    {r : Request F L B β} {a : β}
    (h : Answers i op held w r a held' w') :
    w'.log = w.log ∨ ∃ file old new, w'.log = .wrote i op file old new :: w.log := by
  cases r with
  | acquire lock => cases a <;> simp_all [Answers]
  | release lock => simp_all [Answers]
  | present file => simp_all [Answers]
  | read file => cases a <;> simp_all [Answers]
  | replace file content =>
    cases a with
    | ok => exact Or.inr ⟨file, _, _, congrArg World.log h.2⟩
    | error kind => exact Or.inl (by rw [h.2])
  | create file =>
    cases a with
    | ok => exact Or.inr ⟨file, _, _, congrArg World.log h.2.2⟩
    | error kind => exact Or.inl (by rw [h.2])
  | append file unit =>
    cases a with
    | ok =>
      obtain ⟨-, rfl⟩ := h
      cases w.files file with
      | none => exact Or.inl rfl
      | some content => exact Or.inr ⟨file, _, _, rfl⟩
    | error kind => exact Or.inl (by rw [h.2])
  | sync => simp_all [Answers]

structure State (M : Machine F L B) where
  world : World M
  next : Nat
  calls : Nat → Option (Σ op : M.Op, Call F L B (M.Result op))
  held : Nat → Finset L

/-- No call has been made. -/
def State.initial (L : Type) {M : Machine F L B} (files : F → Option (List B)) : State M where
  world := ⟨files, []⟩
  next := 0
  calls _ := none
  held _ := ∅

/-- The state after call `i` has moved. -/
def State.set (s : State M) (i : Nat) (w : World M)
    (call : Option (Σ op : M.Op, Call F L B (M.Result op))) (held : Finset L) : State M where
  world := w
  next := max s.next (i + 1)
  calls := Function.update s.calls i call
  held := Function.update s.held i held

inductive Step (s : State M) : State M → Prop
  | start (op : M.Op) :
      Step s (s.set s.next (s.world.note (.started s.next op)) (some ⟨op, M.code op⟩) ∅)
  | answer {i : Nat} {op : M.Op} {β : Type} {r : Request F L B β}
      {next : β → Call F L B (M.Result op)} {a : β} {held : Finset L} {w : World M} :
      s.calls i = some ⟨op, .request r next⟩ → Answers i op (s.held i) s.world r a held w →
      (∀ j, j ≠ i → Disjoint (s.held j) held) → Step s (s.set i w (some ⟨op, next a⟩) held)
  | finish {i : Nat} {op : M.Op} {result : M.Result op} :
      s.calls i = some ⟨op, .done result⟩ →
      Step s (s.set i (s.world.note (.returned i op result)) none ∅)
  -- the process of the call stops, and its locks are freed
  | crash {i : Nat} {x : Σ op : M.Op, Call F L B (M.Result op)} : s.calls i = some x →
      Step s (s.set i s.world none ∅)
  | remove {file : F} : M.removable file → Step s { s with world := s.world.remove file }

def Reaches (s t : State M) : Prop := Relation.ReflTransGen Step s t

end

end Files
