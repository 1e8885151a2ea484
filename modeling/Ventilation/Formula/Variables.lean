/-!
The variables that are bound while a formula is evaluated.
-/

set_option autoImplicit false

namespace Ventilation

/-- Each name stands at most once. -/
structure Variables where
  entries : List (String × Float)

namespace Variables

def empty : Variables := ⟨[]⟩

/-- Binds a name, in place of an earlier value. -/
def set (v : Variables) (name : String) (value : Float) : Variables :=
  ⟨(name, value) :: v.entries.filter fun entry => entry.1 ≠ name⟩

def get? (v : Variables) (name : String) : Option Float := v.entries.lookup name

def contains (v : Variables) (name : String) : Bool := (v.get? name).isSome

def size (v : Variables) : Nat := v.entries.length

def ofList (entries : List (String × Float)) : Variables :=
  entries.foldl (fun v entry => v.set entry.1 entry.2) empty

end Variables

end Ventilation
