import RobotProgram.Action.Render
import RobotProgram.Program.Settings

/-!
# Program buffers

A program grows in four buffers: the symbol table of named declarations, in the order of their
first registration, the declaration lines, the instruction lines and the diagnostics. Registering a
name that is there changes nothing. A failure leaves the buffers as they are.
-/

namespace RobotProgram.Program

/-- What a name in the symbol table stands for. -/
inductive Declared where
  | action (a : Action)
  | workObject (w : WorkObject)
  | value (v : Value)

/-- The kind of a declared thing, or the value itself. -/
def Declared.kindValue : Declared → Value
  | action a => .text a.tag
  | workObject _ => .text "WorkObject"
  | value v => v

/-- What a program consists of. -/
structure Buffers where
  symbols : List (Atom × Declared) := []
  declarations : List String := []
  instructions : List String := []
  errors : List String := []

/-- The buffers with the events that were logged. -/
structure Run where
  buffers : Buffers := {}
  events : List Event := []

/-- A step of program generation. It may fail, and keeps what it did before. -/
abbrev Emit := ExceptT Fault (StateM Run)

namespace Emit

/-- Logs an event. -/
def log (e : Event) : Emit Unit := modify fun r => { r with events := r.events ++ [e] }

/-- A logged computation as a step. -/
def ofLogged {α : Type} (x : Logged α) : Emit α := do
  let (outcome, events) := x.run []
  modify fun r => { r with events := r.events ++ events }
  match outcome with
  | .ok a => return a
  | .error f => throw f

/-- Adds a context to the events that a step logs. -/
def within {α : Type} (context : List (String × Value)) (x : Emit α) : Emit α :=
  ExceptT.mk fun r =>
    let (outcome, after) := x.run { r with events := [] }
    (outcome, { after with events := r.events ++ after.events.map (Event.within context) })

/-- Changes the buffers. -/
def change (f : Buffers → Buffers) : Emit Unit := modify fun r => { r with buffers := f r.buffers }

end Emit

/-- The key of a name in the symbol table. -/
def symbolKey (name : Value) : Outcome Atom :=
  if !name.truthy then .error .anonymousDeclaration
  else
    match name with
    | .atom a => .ok a
    | _ => .error .wrongType

/-- Whether a key is in the symbol table. -/
def Buffers.declares (b : Buffers) (key : Atom) : Bool := b.symbols.any fun s => s.1.finds key

/-- Adds a symbol and its declaration line, if there is one. -/
def Buffers.declare (b : Buffers) (key : Atom) (d : Declared) (line : String) : Buffers :=
  { b with
    symbols := b.symbols ++ [(key, d)]
    declarations := if line.isEmpty then b.declarations else b.declarations ++ [line] }

/-- Registers a named declaration, and tells whether the name was new. -/
def register (name : Value) (d : Declared) (line : String) : Emit Bool := do
  let key ← symbolKey name
  if (← get).buffers.declares key then return false
  else
    Emit.change fun b => b.declare key d line
    return true

/-- Adds an instruction line, if there is one. -/
def addInstruction (line : String) : Emit Unit :=
  if line.isEmpty then return
  else Emit.change fun b => { b with instructions := b.instructions ++ [line] }

/-- Adds a diagnostic, and logs it. -/
def addDiagnostic (message : String) : Emit Unit := do
  Emit.log ⟨.warning, "program_diagnostic", [("message", .text message)]⟩
  Emit.change fun b => { b with errors := b.errors ++ [message] }

/-- Adds diagnostics in order. -/
def addDiagnostics (messages : List String) : Emit Unit := messages.forM addDiagnostic

/-- Empties the buffers. -/
def reset : Emit Unit := Emit.change fun _ => {}

end RobotProgram.Program
