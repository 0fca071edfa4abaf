import TraceWeave.Build
import TraceWeave.Descriptor.Handle

/-! # Arenas

An arena keeps the descriptors of one kind by key. The handle of a key is published before its
builder runs, so a builder that asks for its own key, directly or through other descriptors, gets
the handle under construction. A builder that fails takes its key back; its slot stays used up.

`Arena.getOrCreate` is the request for a key: it finds the handle, or publishes one
(`Arena.publish`), runs the builder, and settles the slot or forgets the key. `Arena.resolve`
reads the descriptor behind a handle.
-/

namespace TraceWeave

/-- The state of one place in an arena. -/
inductive Slot (α : Type) where
  | building
  | ready (value : α)
  | failed (message : String)
  deriving Inhabited

/-- Descriptors `α` of kind `k` by keys `κ`. -/
structure Arena (k : DescriptorKind) (κ α : Type) where
  index : List (κ × Handle k) := []
  slots : List (Slot α) := []
  deriving Inhabited

namespace Arena

variable {k : DescriptorKind} {κ α σ : Type}

/-- The value of a finished slot. -/
def Slot.value? : Slot α → Option α
  | .ready value => some value
  | _ => none

/-- The handle of a key, finished or under construction. -/
def find? [BEq κ] (a : Arena k κ α) (key : κ) : Option (Handle k) := a.index.lookup key

/-- The finished descriptor behind a handle. -/
def get? (a : Arena k κ α) (h : Handle k) : Option α :=
  (a.slots[h.index.toNat]?).bind Slot.value?

/-- The finished descriptor behind a handle, which must be there. -/
def resolve (a : Arena k κ α) (h : Handle k) : Except Error α :=
  match a.get? h with
  | some value => .ok value
  | none =>
    .error (.invalidState s!"descriptor {h.index} requested before construction finished")

/-- The number of keys. -/
def len (a : Arena k κ α) : Nat := a.index.length

def isEmpty (a : Arena k κ α) : Bool := a.index.isEmpty

/-- The finished descriptors with their handles, in the order of allocation. -/
def values (a : Arena k κ α) : List (Handle k × α) :=
  a.slots.zipIdx.filterMap fun (slot, i) =>
    (Slot.value? slot).map fun value => (⟨UInt32.ofNat i⟩, value)

/-- The most slots an arena can have. -/
def capacity : Nat := UInt32.size

/-- The error of an arena without a slot to give out. -/
def exhausted : Error := .invalidState "descriptor arena exhausted"

/-- The error for a handle beyond the slots. -/
def unknownSlot (h : Handle k) : Error := .invalidState s!"unknown descriptor slot {h.index}"

/-- The error for a key whose builder has failed. -/
def failedToBuild (h : Handle k) (message : String) : Error :=
  .invalidState s!"descriptor {h.index} failed to build: {message}"

/-- The error for a slot whose construction has ended before. -/
def settledTwice : Error := .invalidState "descriptor slot settled twice"

/-- Takes a fresh slot and publishes its handle under a key. -/
def publish (a : Arena k κ α) (key : κ) : Except Error (Handle k × Arena k κ α) :=
  if a.slots.length < capacity then
    let h : Handle k := ⟨UInt32.ofNat a.slots.length⟩
    .ok (h, { index := a.index ++ [(key, h)], slots := a.slots ++ [.building] })
  else .error exhausted

/-- What a request for a key that is there already answers. -/
def settled (a : Arena k κ α) (h : Handle k) : Except Error (Handle k) :=
  match a.slots[h.index.toNat]? with
  | some (.ready _) | some .building => .ok h
  | some (.failed message) => .error (failedToBuild h message)
  | none => .error (unknownSlot h)

/-- Ends the construction of a slot. -/
def settle (a : Arena k κ α) (h : Handle k) (slot : Slot α) : Except Error (Arena k κ α) :=
  match a.slots[h.index.toNat]? with
  | some .building => .ok { a with slots := a.slots.set h.index.toNat slot }
  | some _ => .error settledTwice
  | none => .error (unknownSlot h)

/-- Takes a key back. -/
def forget [BEq κ] (a : Arena k κ α) (key : κ) : Arena k κ α :=
  { a with index := a.index.filter fun entry => !(entry.1 == key) }

/-- Replaces an arena inside a larger state by the outcome of a step on it. -/
def store (part : Part σ (Arena k κ α)) (step : Arena k κ α → Except Error (Arena k κ α)) :
    Build σ Unit := fun s =>
  match step (part.get s) with
  | .ok a => (.ok (), part.set a s)
  | .error e => (.error e, s)

/-- The handle of a key; runs the builder if the key is not there yet. -/
def getOrCreate [BEq κ] (part : Part σ (Arena k κ α)) (key : κ)
    (build : Handle k → Build σ α) : Build σ (Handle k) := fun s =>
  match (part.get s).find? key with
  | some h => ((part.get s).settled h, s)
  | none =>
    match (part.get s).publish key with
    | .error e => (.error e, s)
    | .ok (h, a) =>
      match (build h).runOn (part.set a s) with
      | (.ok value, s) =>
        (do store part (·.settle h (.ready value)); pure h : Build σ (Handle k)).runOn s
      | (.error e, s) =>
        (do store part fun a => (a.forget key).settle h (.failed e.message)
            Build.fail e : Build σ (Handle k)).runOn s

end Arena

end TraceWeave
