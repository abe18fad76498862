import HttpContract.Declaration.Forward
import HttpContract.Settings.Generation

/-!
# Surroundings

What a program takes from outside its declarations: what texts mean as types, the modules besides those
with declarations, what the code of a module does when it is run, what things hold that is not declared
with them, and what the libraries do that settings are read with. By default there is nothing but the
declarations, and their modules have all been imported.
-/

namespace HttpContract

/-- What a reference leads to. -/
inductive Subject
  | declared (name : ClassName)
  | module (name : String)
  /-- What stands in the place of a class that is not declared but has classes inside. -/
  | group (path : ClassName)
  | function (module qualname : String)
  | builtinClass (name : String)
  /-- Any other object, known by its type. -/
  | object (module typeName : String)
deriving DecidableEq, Repr, Inhabited

/-- Why a reference leads nowhere. -/
inductive LookupError
  | malformed (reference : String)
  /-- The module is given relative to a package that there is not. -/
  | relative
  | noModule (name : String)
  | moduleLacks (module member : String)
  | classLacks (cls member : String)
  | objectLacks (typeName member : String)
  /-- Records and enumerations name the attribute only. -/
  | lacks (member : String)
  /-- Code that runs on the way ends in an error of the kinds that look-ups end in. -/
  | raised (message : String)
  /-- Code that runs on the way ends in any other error. -/
  | escaped (breakdown : Breakdown)
deriving DecidableEq, Repr, Inhabited

/-- What a program takes from outside its declarations. -/
structure Surroundings where
  /-- The characters that have names. -/
  characters : CharacterNames := .none
  /-- What the texts in the types of a method mean, which depends on the modules imported so far. -/
  evaluate (imported : List String) (contract method : String) : Forward.Evaluation :=
    Forward.resolve
  /-- Whether there is a module of a name, besides those with declarations. -/
  hasModule (name : String) : Bool := false
  /-- Whether a module has been imported before the program begins. -/
  isLoaded (name : String) : Bool := true
  /-- The modules that the code of a module imports when it is run, and the error that it ends in. -/
  execute (imported : List String) (name : String) : List String × Option LookupError := ([], none)
  /-- What something holds under a name that it is not declared with. -/
  attribute? (imported : List String) (subject : Subject) (name : String) : Option Subject := none
  /-- The error that something answers with when it is asked for a name that it does not hold, in place
  of the usual one. -/
  refuse? (imported : List String) (subject : Subject) (name : String) : Option LookupError := none
  /-- Whether the stack is too small for reading a settings file of a format with a text. -/
  exhausts (isToml : Bool) (text : String) : Bool := false
  /-- The settings that come of entries of which some are meant for the library that reads settings. -/
  steer? (tree : FileTree) (environment : List (String × String)) (entries : Layer) :
    Option (Except GenerationSettings.LoadFailure GenerationSettings) := none

end HttpContract
