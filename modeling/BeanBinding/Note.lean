/-!
# Notes

Building a codec may give rise to remarks for whoever runs it: warnings about declarations, errors
that are reported where they arise, and remarks of modifiers that callers install. They are
collected beside the result and never change it.
-/

namespace BeanBinding

/-- How serious a note is. -/
inductive Level where
  | remark
  | warning
  | error
deriving DecidableEq, Repr

/-- Something worth telling whoever runs the codec. -/
structure Note where
  level : Level
  text : String
deriving DecidableEq, Repr

/-- A result, with the notes taken while it was made, in order. -/
structure Noted (α : Type) where
  value : α
  notes : List Note

namespace Noted

def plain {α : Type} (value : α) : Noted α := ⟨value, []⟩

/-- Goes on with a result; its notes come first. -/
def andThen {α β : Type} (x : Noted α) (f : α → Noted β) : Noted β :=
  ⟨(f x.value).value, x.notes ++ (f x.value).notes⟩

end Noted

instance : Monad Noted where
  pure := Noted.plain
  bind := Noted.andThen

end BeanBinding
