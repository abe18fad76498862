import HttpContract.Client.Attributes

/-!
# Registries of clients

A registry generates and loads the client classes of contracts, each one once, and makes clients
that share one way to send. A class whose generation or loading fails is not kept. A registry closes
only what it made itself.
-/

namespace HttpContract

/-- What clients are made of: their settings, a sender, and the classes that were loaded so far. -/
structure ClientRegistry where
  program : Program
  settings : GenerationSettings
  client : HttpSender
  /-- Whether the registry made the client that it sends by. -/
  ownsClient : Bool := false
  tree : FileTree
  /-- The classes that have been loaded. -/
  classes : List (ClassName × ClientClass) := []

/-- A client of a loaded class. -/
structure BoundClient where
  cls : ClientClass
  logger : String
deriving Repr, Inhabited

namespace BoundClient

/-- What the client puts around the requests of its methods. -/
def binder (b : BoundClient) : Binder := .of b.cls.contract.serviceName b.cls.contract.baseRoute

/-- The logger of a client that is given none. -/
def defaultLogger : String := "declient_sdk.base"

/-- What is logged when a request goes out. -/
def invokingRecord (b : BoundClient) (r : Request) : LogRecord :=
  ⟨.debug, b.logger, s!"Invoking {r.method} {r.path} on {b.binder.service}"⟩

end BoundClient

/-- What comes of a call: the result, whether it had to be awaited, and the arguments as the call
leaves them. -/
structure CallReport where
  result : Except CallError Value
  isAsync : Bool := false
  arguments : Arguments

namespace ClientRegistry

/-- The logger that loading reports to. -/
def loaderLogger : String := "declient.loader"

/-- A registry that sends by the client it is given, or else by one of its own. -/
def make (program : Program) (settings : GenerationSettings) (tree : FileTree)
    (given? : Option HttpSender) (own : HttpSender) : ClientRegistry :=
  { program, settings, tree, client := given?.getD own, ownsClient := given?.isNone }

/-- Generates and loads the class of a contract. -/
def loadClass (f : ClientRegistry) (name : ClassName) (t : Traffic) :
    Except Failure ClientClass × FileTree × Traffic :=
  let report := Generation.generate f.settings f.program (.declared name) f.tree
  let t := { t with log := t.log ++ report.log }
  match report.result with
  | .error e => (.error e, report.tree, t)
  | .ok g =>
    match ClientClass.load f.program f.settings name g with
    | .error b => (.error (.broken b), report.tree, t)
    | .ok c =>
      let loaded := s!"Loaded {g.fullClassName} for {name.qualname}"
      let made := t.classesMade
      (.ok { c with identity := made }, report.tree,
        { t.record ⟨.debug, loaderLogger, loaded⟩ with classesMade := made + 1 })

/-- The client class of a contract. -/
def classOf (f : ClientRegistry) (name : ClassName) (t : Traffic) :
    Except Failure ClientClass × ClientRegistry × Traffic :=
  match Entries.get? f.classes name with
  | some c => (.ok c, f, t)
  | none =>
    match f.loadClass name t with
    | (.error e, tree, t) => (.error e, { f with tree }, t)
    | (.ok c, tree, t) => (.ok c, { f with tree, classes := Entries.insert f.classes name c }, t)

/-- Makes a client of a contract. -/
def create (f : ClientRegistry) (name : ClassName) (logger : String) (t : Traffic) :
    Except Failure BoundClient × ClientRegistry × Traffic :=
  match f.classOf name t with
  | (.error e, f, t) => (.error e, f, t)
  | (.ok c, f, t) =>
    match c.obstacleToMake? f.program with
    | some b => (.error (.broken b), f, t)
    | none => (.ok { cls := c, logger }, f, t)

/-- Sends a request of a client. -/
def send (b : BoundClient) (mode : Completion) (r : Request) (s : HttpSender × Traffic) :
    Except CallError Response × HttpSender × Traffic :=
  s.1.send mode r (s.2.record (b.invokingRecord r))

/-- Calls a method of the contract. -/
def callOperation (f : ClientRegistry) (b : BoundClient) (o : Operation) (plan : CallPlan)
    (a : Arguments) (t : Traffic) : CallReport × ClientRegistry × Traffic :=
  match a.bind? o.formals with
  | none => ({ result := .error (.broken .wrongType), arguments := a }, f, t)
  | some frame =>
    let x : CallContext :=
      { scope := f.program.scope, binder := b.binder, obstacles := b.cls.obstacles }
    let (result, frame, client, t) := plan.run x (send b) frame (f.client, t)
    ({ result, isAsync := o.isAsync, arguments := a.updated o.formals frame }, { f with client }, t)

/-- What comes of a function that is no method of the contract: its body is empty. -/
def callPlain (function : Function) (a : Arguments) : Except CallError Value :=
  if (a.bind? function.formals).isSome then .ok .null else .error (.broken .wrongType)

/-- What comes of a function of the client itself, given nothing that only its methods have. -/
def callPrimitive (p : Primitive) (a : Arguments) : Except CallError Value :=
  match p, a.bind? p.formals with
  | _, none => .error (.broken .wrongType)
  | .valueText, some frame =>
    ((frame.value "value").bind valueText).map Value.text |>.mapError CallError.broken
  | _, some _ => .error (.broken .missingAttribute)

/-- Calls what a name on a client leads to. -/
def call (f : ClientRegistry) (b : BoundClient) (name : String) (a : Arguments) (t : Traffic) :
    CallReport × ClientRegistry × Traffic :=
  let plain (result : Except CallError Value) (isAsync : Bool) :
      CallReport × ClientRegistry × Traffic :=
    ({ result, isAsync, arguments := a }, f, t)
  match b.cls.attribute? f.program name with
  | none => plain (.error (.broken .missingAttribute)) false
  | some .state => plain (.error (.broken .wrongType)) false
  | some (.operation o plan) => f.callOperation b o plan a t
  | some (.primitive p) => plain (callPrimitive p a) false
  | some (.member (.method g _)) | some (.member (.classMethod g _)) =>
    plain (callPlain g (a.after .null)) g.isAsync
  | some (.member (.static g _)) => plain (callPlain g a) g.isAsync
  | some (.member (.property ..)) | some (.member (.attribute _)) =>
    plain (.error (.broken .wrongType)) false

/-- Closes the synchronous channel of a client that the registry made. -/
def close (f : ClientRegistry) (t : Traffic) : ClientRegistry × Traffic :=
  if f.ownsClient then
    let (client, t) := f.client.close t
    ({ f with client }, t)
  else (f, t)

/-- Closes both channels of a client that the registry made. -/
def closeAll (f : ClientRegistry) (t : Traffic) : ClientRegistry × Traffic :=
  if f.ownsClient then
    let (client, t) := f.client.closeAll t
    ({ f with client }, t)
  else (f, t)

end ClientRegistry

end HttpContract
