import TraceWeave.Descriptor.Arena

/-! # Builders given by a table

A family of builders over one arena, each described by what it asks for and how it ends. Such a
family is the general case of builders that run in one thread: they may ask for any keys, their
own included, and may let the failure of another builder pass or not.

A `Script` is a list of `Ask`s and an ending, `Scripts` gives one for each key.
`PlanState.request` asks for one key from outside and `PlanState.build` is the builder that
follows the script of its key.
-/

namespace TraceWeave

/-- A request that a builder makes. -/
structure Ask where
  key : String
  /-- Whether the builder goes on without the descriptor if the request fails. -/
  optional : Bool := false
  deriving DecidableEq, Repr, Inhabited

/-- What a builder does. -/
structure Script where
  /-- Its requests, in order. -/
  asks : List Ask := []
  /-- How it fails in the end, if it does. -/
  failure : Option String := none
  deriving DecidableEq, Repr, Inhabited

/-- A script in two parts: first requests whose failures are ignored, then others. -/
structure Plan where
  /-- Keys that are asked for first; their failures are ignored. -/
  attempts : List String := []
  /-- Keys that are asked for next; the first failure ends the builder. -/
  deps : List String := []
  /-- How the builder fails in the end, if it does. -/
  failure : Option String := none
  deriving DecidableEq, Repr, Inhabited

def Plan.script (p : Plan) : Script where
  asks := p.attempts.map (⟨·, true⟩) ++ p.deps.map (⟨·, false⟩)
  failure := p.failure

/-- What a script builds. -/
structure PlanNode where
  name : String
  /-- The handles that the requests led to, without those that failed. -/
  deps : List (Handle .location)
  deriving DecidableEq, Repr, Inhabited

/-- The start of a builder. -/
structure BuildStart where
  key : String
  handle : Handle .location
  /-- Whether the builder's own descriptor was not there yet. -/
  pending : Bool
  deriving DecidableEq, Repr, Inhabited

/-- An arena together with the builders that were started, in order. -/
structure PlanState where
  arena : Arena .location String PlanNode := {}
  log : List BuildStart := []
  deriving Inhabited

/-- Builders by key; a key without one is built from nothing. -/
abbrev Scripts := List (String × Script)

namespace Scripts

def get (scripts : Scripts) (key : String) : Script := (scripts.lookup key).getD {}

/-- All keys that builders ask for. -/
def asked (scripts : Scripts) : List String :=
  scripts.flatMap fun (_, script) => script.asks.map Ask.key

end Scripts

namespace PlanState

def arenaPart : Part PlanState (Arena .location String PlanNode) :=
  ⟨PlanState.arena, fun a s => { s with arena := a }⟩

/-- Notes that a builder starts. -/
def start (key : String) (h : Handle .location) (s : PlanState) : PlanState :=
  { s with log := s.log ++ [⟨key, h, (s.arena.get? h).isNone⟩] }

/-- Makes requests one after the other, up to the first failure that is not ignored. -/
def askAll (request : String → Build PlanState (Handle .location)) :
    List Ask → Build PlanState (List (Handle .location))
  | [] => pure []
  | ask :: asks => do
    let found ← Build.tolerate ask.optional (request ask.key)
    let others ← askAll request asks
    return found.toList ++ others

/-- The builder of a key. -/
def build (scripts : Scripts) (request : String → Build PlanState (Handle .location))
    (key : String) (h : Handle .location) : Build PlanState PlanNode := do
  modify (start key h)
  let found ← askAll request (scripts.get key).asks
  match (scripts.get key).failure with
  | some message => Build.fail (.generic message)
  | none => pure ⟨key, found⟩

/-- Asks for a key, with at most `fuel` builders inside each other. -/
def requestWithin (scripts : Scripts) : Nat → String → Build PlanState (Handle .location)
  | 0, _ => Build.fail (.invalidState "too many builders inside each other")
  | fuel + 1, key => Arena.getOrCreate arenaPart key (build scripts (requestWithin scripts fuel) key)

/-- Asks for a key. A builder inside another one has a key of its own, and every key is asked for
by name in a script or is the first one, so the bound is never met. -/
def request (scripts : Scripts) (key : String) : Build PlanState (Handle .location) :=
  requestWithin scripts (scripts.asked.length + 2) key

/-- Asks for a key with builders given by plans. -/
def create (plans : List (String × Plan)) (key : String) : Build PlanState (Handle .location) :=
  request (plans.map fun (key, plan) => (key, plan.script)) key

end PlanState

end TraceWeave
