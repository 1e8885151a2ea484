/-!
The arguments of a command line: words, and options with a value or without. An option stands once
at most, and its value follows it after an equals sign, as the next argument, or, after a letter, at
once.
-/

set_option autoImplicit false

namespace Ventilation.Command

/-- An option that a command knows, by its name and perhaps by a letter. -/
structure KnownOption where
  name : String
  letter : Option Char
  takesValue : Bool

/-- An argument by its form. -/
inductive Argument where
  | word (text : String)
  | long (name : String) (value : Option String)
  | short (letter : Char) (value : Option String)
  /-- Two hyphens: whatever follows is a word. -/
  | onlyWords

def Argument.ofText (text : String) : Argument :=
  match text.toList with
  | ['-', '-'] => .onlyWords
  | '-' :: '-' :: rest =>
    let name := String.ofList (rest.takeWhile (· ≠ '='))
    match rest.dropWhile (· ≠ '=') with
    | [] => .long name none
    | _ :: value => .long name (some (String.ofList value))
  | '-' :: letter :: rest =>
    match rest with
    | [] => .short letter none
    | '=' :: value => .short letter (some (String.ofList value))
    | value => .short letter (some (String.ofList value))
  | _ => .word text

/-- The known option that an argument stands for, and the value attached to it. -/
def Argument.option? (known : List KnownOption) : Argument → Option (KnownOption × Option String)
  | .long name value => (known.find? fun o => o.name = name).map fun o => (o, value)
  | .short letter value => (known.find? fun o => o.letter = some letter).map fun o => (o, value)
  | _ => none

/-- Arguments after they were read. An option without a value has an empty one. -/
structure Line where
  words : List String
  options : List (String × String)

namespace Line

def empty : Line := ⟨[], []⟩

def value? (line : Line) (name : String) : Option String := line.options.lookup name

def has (line : Line) (name : String) : Bool := (line.value? name).isSome

/-- Gives an option its value, unless it has one. -/
def give? (line : Line) (name value : String) : Option Line :=
  if line.has name then none else some { line with options := line.options ++ [(name, value)] }

/-- Reads arguments into a line; with `toWord` up to the first word, which the words then begin
with. -/
def read? (known : List KnownOption) (toWord : Bool) : Line → List String → Option Line
  | line, [] => some line
  | line, arg :: rest =>
    match Argument.ofText arg with
    | .word text =>
      if toWord then some { line with words := text :: rest }
      else read? known toWord { line with words := line.words ++ [text] } rest
    | .onlyWords => if toWord then none else some { line with words := line.words ++ rest }
    | a =>
      (a.option? known).bind fun (o, attached) =>
        if !o.takesValue then
          if attached.isSome then none
          else (line.give? o.name "").bind fun line => read? known toWord line rest
        else
          match attached, rest with
          | some value, rest =>
            (line.give? o.name value).bind fun line => read? known toWord line rest
          | none, next :: rest =>
            match Argument.ofText next with
            | .word value => (line.give? o.name value).bind fun line => read? known toWord line rest
            | _ => none
          | none, [] => none

end Line

end Ventilation.Command
