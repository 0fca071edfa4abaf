import TraceWeave.Descriptor.Handle

/-! # Frame snapshots

The values of the visible variables at one point of a run, and what changed between two points.

`FrameSnapshot.get?` looks a variable up, and `FrameSnapshot.diff` lists the `FrameChange`s from
one snapshot to another: the entries of the later one whose value is new or has changed. It says
nothing of variables that are no longer there.
-/

namespace TraceWeave

/-- Values of variables, in the order of their declaration. -/
structure FrameSnapshot (V : Type) where
  location : Handle .location
  values : List (Handle .localInfo × V)
  deriving Inhabited

/-- A difference between two snapshots. -/
inductive FrameChange (V : Type) where
  /-- The variable is not in the earlier snapshot. -/
  | defined (var : Handle .localInfo) (value : V)
  | changed (var : Handle .localInfo) (before after : V)

namespace FrameSnapshot

variable {V : Type}

/-- The value of the first entry of a variable. -/
def get? (s : FrameSnapshot V) (var : Handle .localInfo) : Option V := s.values.lookup var

def len (s : FrameSnapshot V) : Nat := s.values.length

def isEmpty (s : FrameSnapshot V) : Bool := s.values.isEmpty

/-- The changes from a snapshot to a later one, in the order of the later one. -/
def diff [BEq V] (s later : FrameSnapshot V) : List (FrameChange V) :=
  later.values.filterMap fun (var, after) =>
    match s.get? var with
    | none => some (.defined var after)
    | some before => if before == after then none else some (.changed var before after)

end FrameSnapshot

end TraceWeave
