import Std.Data.TreeMap
import HostCall.Host.Class

/-!
# Scripted host code

Host classes can be made from scripts: small programs over a state of named values and a list of
arguments. An evaluator can be made from rules that answer nodes by their names.
-/

namespace HostCall.Script

/-- The state of a scripted instance: values by name. -/
abbrev State := Std.TreeMap String Value

inductive Action where
  | nothing
  | give (v : Value)
  | argument (i : ArgumentList.Position)
  | arguments
  | get (name : String)
  | set (name : String) (i : ArgumentList.Position)
  | add (name : String) (i : ArgumentList.Position)
  | count
  | types
  | show
  | convert (types : List HostType)
  | payload (i : ArgumentList.Position)
  | fail (text : String)
  | panic (p : Panic)
  | emit (text : String)
  | sequence (steps : List Action)

/-- The value of a name; an absent one is null. -/
def State.read (s : State) (name : String) : Value := s[name]?.getD .null

/-- The size of an argument list and whether it is empty. -/
def countOf (args : ArgumentList) : Value :=
  .list [.ofSize args.length, .bool args.isEmpty]

/-- Arguments as data of the given types, back as values, up to the first that is none. -/
def convertFrom (args : ArgumentList) :
    ArgumentList.Position → List HostType → Except HostError (List Value)
  | _, [] => .ok []
  | i, type :: types =>
    match ArgumentList.get args type i with
    | .error e => .error e
    | .ok x => (convertFrom args (i + 1) types).map (type.toValue x :: ·)

/-- What an object carries inside, as a value. -/
def payloadOf (o : ObjectRef) : Except HostError Value :=
  match o.payload with
  | .number n => .ok (.long n)
  | .text s => .ok (.text s)
  | .none => .error (.failed "unknown payload")

/-- A run that passes a result on. -/
def finish (s : State) (result : Except HostError Value) : HostRun Value × State :=
  ({ outcome := .ofExcept result }, s)

mutual

def Action.run (s : State) (args : ArgumentList) : Action → HostRun Value × State
  | .nothing => finish s (.ok .null)
  | .give v => finish s (.ok v)
  | .argument i => finish s (ArgumentList.value args i)
  | .arguments => finish s (.ok (.list args))
  | .get name => finish s (.ok (s.read name))
  | .set name i =>
    match ArgumentList.value args i with
    | .error e => finish s (.error e)
    | .ok v => finish (s.insert name v) (.ok (s.read name))
  | .add name i =>
    match ArgumentList.get args (.plain .long) i with
    | .error e => finish s (.error e)
    | .ok (n : Int64) =>
      let sum := Value.long ((s.read name).integer?.getD 0 + n)
      finish (s.insert name sum) (.ok sum)
  | .count => finish s (.ok (countOf args))
  | .types => finish s (.ok (.ofList .text (args.map Value.kindName)))
  | .show => finish s (.ok (.ofList .text (args.map Value.render)))
  | .convert types => finish s ((convertFrom args 0 types).map .list)
  | .payload i =>
    match ArgumentList.get args (.plain .object) i with
    | .error e => finish s (.error e)
    | .ok (o : ObjectRef) => finish s (payloadOf o)
  | .fail text => finish s (.error (.failed text))
  | .panic p => ({ outcome := .panicked p }, s)
  | .emit text => ({ outcome := .returned .null, events := [text] }, s)
  | .sequence steps => runAll s args .null steps

/-- Runs scripts one after the other, up to the first that does not answer; the last answer, or a
given one where there is none, is that of all. -/
def runAll (s : State) (args : ArgumentList) (last : Value) :
    List Action → HostRun Value × State
  | [] => finish s (.ok last)
  | a :: rest =>
    let (run, s) := a.run s args
    match run.outcome with
    | .returned v =>
      let (more, s) := runAll s args v rest
      ({ more with events := run.events ++ more.events }, s)
    | .failed e => ({ run with outcome := .failed e }, s)
    | .panicked p => ({ run with outcome := .panicked p }, s)

end

/-- The run of a script that makes an instance out of an empty state. -/
def Action.make (a : Action) (args : ArgumentList) : HostRun State :=
  let (run, s) := a.run {} args
  { outcome :=
      match run.outcome with
      | .returned _ => .returned s
      | .failed e => .failed e
      | .panicked p => .panicked p
    events := run.events }

def constructor (configured : Bool) (a : Action) : Constructor State :=
  if configured then .configured fun config => a.make [.node config] else .plain (a.make [])

/-- A scripted field. A script that fails reads as null, and no script changes the state. -/
def field (name : String) (a : Action) : Field State where
  name
  read s :=
    let (run, _) := a.run s []
    { answer :=
        match run.outcome with
        | .returned v => .ok v
        | .failed _ => .ok .null
        | .panicked p => .error p
      events := run.events }

/-- A scripted method with parameter types of any kind. -/
def method (name : String) (params : List CallType) (a : Action) : Method State :=
  { name, params, body := fun s args => a.run s args }

/-- A scripted method over at most two typed arguments, which the script sees as values again. -/
def typedMethod? (name : String) (types : List SlotType) (a : Action) : Option (Method State) :=
  match types with
  | [] => some (.typed0 name fun s => a.run s [])
  | [t] => some (.typed1 name t fun s x => a.run s [t.type.toValue x])
  | [t, u] =>
    some (.typed2 name t u fun s x y => a.run s [t.type.toValue x, u.type.toValue y])
  | _ => none

/-- How a rule answers nodes of a name. -/
structure Rule where
  name : String
  answer : Except Panic Value

/-- An evaluator that answers by rules and reads all other nodes as literals; it may tell which
nodes it sees. -/
def evaluator (tells : Bool) (rules : List Rule) : Evaluator := fun v =>
  { answer :=
      match rules.find? fun r => r.name == v.name with
      | some r => r.answer
      | none => Evaluator.read v
    events := if tells then ["eval " ++ v.name] else [] }

end HostCall.Script
