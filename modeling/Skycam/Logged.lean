/-!
# Results with a log

What the library reports while it works (a script line it cannot read, a target it loses) is part
of the answer of a function, never a side effect: a `Logged` value carries the notes that were made
on the way, oldest first. The value of a composed computation depends on the values of its parts
only (`Logged.value_bind`), so a reader who does not care for the notes may ignore them.
-/

namespace Skycam

/-- How much attention a note asks for. -/
inductive Level where
  /-- Something that should be there is missing. -/
  | error
  /-- Something went wrong and was made good. -/
  | warn
  /-- A change that the user asked for took place. -/
  | info
  /-- A detail of how the work went. -/
  | debug
  deriving DecidableEq, Repr

/-- The name of a level. -/
def Level.label : Level → String
  | error => "ERROR"
  | warn => "WARN"
  | info => "INFO"
  | debug => "DEBUG"

/-- One message of the log. -/
structure Note where
  /-- The level of the message. -/
  level : Level
  /-- The message itself. -/
  text : String
  deriving DecidableEq, Repr

/-- A note as a line of the log: its level and its text. -/
def Note.line (n : Note) : String := s!"{n.level.label} {n.text}"

/-- A value together with the notes made while it was computed, oldest first. -/
structure Logged (α : Type) where
  /-- The result. -/
  value : α
  /-- The notes, in the order in which they were made. -/
  notes : List Note
  deriving DecidableEq, Repr

namespace Logged

variable {α β : Type}

instance : Monad Logged where
  pure a := ⟨a, []⟩
  bind x f := ⟨(f x.value).value, x.notes ++ (f x.value).notes⟩

/-- Makes the given notes. -/
def report (notes : List Note) : Logged Unit := ⟨(), notes⟩

/-- Makes one note. -/
def note (level : Level) (text : String) : Logged Unit := report [⟨level, text⟩]

/-- Does the same with each item of a list, first item first. -/
def each (items : List α) (f : α → Logged β) : Logged (List β) :=
  ⟨items.map fun a => (f a).value, items.flatMap fun a => (f a).notes⟩

@[simp] theorem value_pure (a : α) : (pure a : Logged α).value = a := rfl

@[simp] theorem notes_pure (a : α) : (pure a : Logged α).notes = [] := rfl

@[simp] theorem value_bind (x : Logged α) (f : α → Logged β) :
    (x >>= f).value = (f x.value).value := rfl

@[simp] theorem notes_bind (x : Logged α) (f : α → Logged β) :
    (x >>= f).notes = x.notes ++ (f x.value).notes := rfl

theorem bind_congr_value (x : Logged α) {f g : α → Logged β} (h : f x.value = g x.value) :
    x >>= f = x >>= g := by
  show (⟨(f x.value).value, x.notes ++ (f x.value).notes⟩ : Logged β) =
    ⟨(g x.value).value, x.notes ++ (g x.value).notes⟩
  rw [h]

@[simp] theorem value_map (f : α → β) (x : Logged α) : (f <$> x).value = f x.value := rfl

@[simp] theorem notes_note (level : Level) (text : String) :
    (note level text).notes = [⟨level, text⟩] := rfl

@[simp] theorem value_each (items : List α) (f : α → Logged β) :
    (each items f).value = items.map fun a => (f a).value := rfl

end Logged

end Skycam
