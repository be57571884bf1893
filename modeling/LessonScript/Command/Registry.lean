import LessonScript.Command.Basic

/-!
# The registry

A registry binds names to commands in the order of registration. Registering a bound name
replaces its command in place. What a parser uses of a registry is its command set: the inline
commands and the block commands in order, and the inline command that is bound to "pause".
-/

namespace LessonScript

structure Registry where
  commands : Table String Command

/-- What a parser uses of a registry. -/
structure CommandSet where
  inline : List InlineCommand
  block : List BlockCommand
  pause : Option InlineCommand

namespace Registry

def empty : Registry := ⟨Table.empty⟩

instance : Inhabited Registry := ⟨empty⟩

def register (r : Registry) (name : String) (command : Command) : Registry :=
  ⟨r.commands.insert name command⟩

/-- The command bound to a name; registering that name displaces it. -/
def get? (r : Registry) (name : String) : Option Command := r.commands.get? name

def has (r : Registry) (name : String) : Bool := r.commands.contains name

def names (r : Registry) : List String := r.commands.keys

def size (r : Registry) : Nat := r.commands.size

def inlineCommands (r : Registry) : List InlineCommand :=
  r.commands.values.filterMap Command.inline?

def blockCommands (r : Registry) : List BlockCommand := r.commands.values.filterMap Command.block?

def commandSet (r : Registry) : CommandSet where
  inline := r.inlineCommands
  block := r.blockCommands
  pause := (r.get? "pause").bind Command.inline?

def ofList (commands : List (String × Command)) : Registry :=
  commands.foldl (fun r p => r.register p.1 p.2) empty

theorem get?_register (r : Registry) (name₁ name : String) (command : Command) :
    (r.register name₁ command).get? name = if name₁ = name then some command else r.get? name :=
  Table.get?_insert ..

theorem names_register (r : Registry) (name : String) (command : Command) :
    (r.register name command).names = r.names ++ if name ∈ r.names then [] else [name] :=
  Table.keys_insert ..

end Registry
end LessonScript
