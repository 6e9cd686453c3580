/-
Model — `mm/frame.rs`: the buddy allocator of physical frames.

One free list for each order, all of them linked through one table of nodes that is indexed by frame
number; `u32::MAX` ends a list. `none` is an overflow or a walk along a list that does not end. The
sums that cannot leave their width are plain sums.
-/
import Nt61.Lib.Checked
import Nt61.Lib.Dyadic

namespace Nt61.Buddy

open Lib Function

def FREE_LIST_END : Nat := 2 ^ 32 - 1
def MAX_BUDDY_ORDER : Nat := 21
def PAGE_SIZE : Nat := 4096

inductive FrameFlags where
  | free
  | used
  | reserved
  | boot
  | mmio
  deriving DecidableEq

structure BuddyNode where
  next : Nat
  prev : Nat
  onList : Nat
  deriving DecidableEq

structure FreeListHead where
  head : Nat
  count : Nat
  deriving DecidableEq

def FreeListHead.empty : FreeListHead := { head := FREE_LIST_END, count := 0 }

/-- The lists of the orders from `MAX_BUDDY_ORDER` on stay empty. -/
structure BuddyAllocator where
  freeLists : Nat → FreeListHead
  flags : Nat → FrameFlags
  nodes : Nat → BuddyNode
  numFrames : Nat
  baseAddress : Nat
  freeFrames : Nat
  initialised : Bool

/-- The loop halves the count until it is 1 and counts the steps. -/
def orderOf (count : Nat) : Nat :=
  if count ≤ 1 then 0
  else
    let order := count.log2
    if count > 2 ^ order then order + 1 else order

namespace BuddyAllocator

def new : BuddyAllocator :=
  { freeLists := fun _ => FreeListHead.empty
    flags := fun _ => .free
    nodes := fun _ => ⟨0, 0, 0⟩
    numFrames := 0
    baseAddress := 0
    freeFrames := 0
    initialised := false }

variable (b : BuddyAllocator)

def pushNodes (head frame : Nat) : Nat → BuddyNode :=
  let nodes := update b.nodes frame { next := head, prev := FREE_LIST_END, onList := 1 }
  if head ≠ FREE_LIST_END then update nodes head { nodes head with prev := frame }
  else nodes

def pushHead (order frame : Nat) : Option BuddyAllocator :=
  let list := b.freeLists order
  (Checked.add 32 list.count 1).map fun count =>
    { b with
      nodes := b.pushNodes list.head frame
      freeLists := update b.freeLists order { head := frame, count := count } }

def removeNodes (frame : Nat) : Nat → BuddyNode :=
  let next := (b.nodes frame).next
  let prev := (b.nodes frame).prev
  let nodes :=
    if prev ≠ FREE_LIST_END then update b.nodes prev { b.nodes prev with next := next }
    else b.nodes
  let nodes :=
    if next ≠ FREE_LIST_END then update nodes next { nodes next with prev := prev }
    else nodes
  update nodes frame { next := FREE_LIST_END, prev := FREE_LIST_END, onList := 0 }

def removeNode (order frame : Nat) : Option BuddyAllocator :=
  let list := b.freeLists order
  let head := if (b.nodes frame).prev ≠ FREE_LIST_END then list.head else (b.nodes frame).next
  (Checked.sub list.count 1).map fun count =>
    { b with
      nodes := b.removeNodes frame
      freeLists := update b.freeLists order { head := head, count := count } }

def blockContainsReserved (frame order : Nat) : Bool :=
  (List.range (2 ^ order)).any fun i =>
    decide (frame + i < b.numFrames) && decide (b.flags (frame + i) = .reserved)

/-- The walk of `take_allocatable`, for at most so many nodes. -/
def firstAllocatable (order : Nat) : Nat → Nat → Option (Option Nat)
  | fuel, cur =>
    if cur = FREE_LIST_END then some none
    else
      match fuel with
      | 0 => none
      | fuel + 1 =>
        if ¬ b.blockContainsReserved cur order then some (some cur)
        else firstAllocatable order fuel (b.nodes cur).next

/-- A list without a cycle has at most as many nodes as there are frames. -/
def takeAllocatable (order : Nat) : Option (Option (Nat × BuddyAllocator)) :=
  (b.firstAllocatable order b.numFrames (b.freeLists order).head).bind fun found =>
  match found with
  | none => some none
  | some frame => (b.removeNode order frame).map fun b => some (frame, b)

def markBlock (frame order : Nat) (mark : FrameFlags) : Nat → FrameFlags :=
  fun i => if frame ≤ i ∧ i < frame + 2 ^ order ∧ i < b.numFrames then mark else b.flags i

/-- Split a block of order `curOrder` down to `order`: the upper halves go back on the lists. -/
def splitDown (frame order : Nat) : Nat → BuddyAllocator → Option BuddyAllocator
  | 0, b => some b
  | curOrder + 1, b =>
    if curOrder + 1 > order then
      (b.pushHead curOrder (buddy frame curOrder)).bind (splitDown frame order curOrder)
    else some b

/-- What `allocate` does with a block that it took from the list of `currentOrder`. -/
def handOut (frame order currentOrder : Nat) : Option (Option Nat × BuddyAllocator) :=
  (splitDown frame order currentOrder b).bind fun b =>
  (Checked.add 64 b.baseAddress (frame * 4096)).map fun address =>
    (some address, { b with
        flags := b.markBlock frame order .used
        freeFrames := (b.freeFrames + 2 ^ 64 - 2 ^ order) % 2 ^ 64 })

/-- The loop of `allocate` over the orders that are left. -/
def allocateFrom (order : Nat) : List Nat → Option (Option Nat × BuddyAllocator)
  | [] => some (none, b)
  | currentOrder :: rest =>
    (b.takeAllocatable currentOrder).bind fun taken =>
    match taken with
    | none => allocateFrom order rest
    | some (frame, b) => b.handOut frame order currentOrder

def allocate (count : Nat) : Option (Option Nat × BuddyAllocator) :=
  if ¬ b.initialised ∨ count = 0 then some (none, b)
  else
    let order := min (orderOf count) (MAX_BUDDY_ORDER - 1)
    b.allocateFrom order (List.range' order (MAX_BUDDY_ORDER - order))

/-- The merging loop of `free`; so many orders are left. Returns the block it ends with. -/
def coalesce : Nat → Nat → Nat → BuddyAllocator → Option (Nat × Nat × BuddyAllocator)
  | 0, frame, order, b => some (frame, order, b)
  | left + 1, frame, order, b =>
    let other := buddy frame order
    if other ≥ b.numFrames then some (frame, order, b)
    else if (b.nodes other).onList = 0 then some (frame, order, b)
    else
      (b.removeNode order other).bind fun b => coalesce left (min frame other) (order + 1) b

def free (physAddr count : Nat) : Option BuddyAllocator :=
  if ¬ b.initialised ∨ physAddr < b.baseAddress then some b
  else
    let frame := (physAddr - b.baseAddress) / 4096
    let order := min (orderOf count) (MAX_BUDDY_ORDER - 1)
    if frame ≥ b.numFrames ∨ min (frame + 2 ^ order) (2 ^ 64 - 1) > b.numFrames then some b
    else
      let frame := frame % 2 ^ 32
      let b := { b with flags := b.markBlock frame order .free }
      (coalesce (MAX_BUDDY_ORDER - 1 - order) frame order b).bind fun (curFrame, curOrder, b) =>
      (b.pushHead curOrder curFrame).map fun b =>
        { b with freeFrames := (b.freeFrames + 2 ^ order) % 2 ^ 64 }

/-! ## `init` -/

/-- The bytes of a `FrameInfo` and of a `BuddyNode`. -/
def FRAME_INFO_SIZE : Nat := 8
def BUDDY_NODE_SIZE : Nat := 12

/-- The node of a frame after the first seeding: all frames in order, on the list of order 0. -/
def seedNode (total i : Nat) (node : BuddyNode) : BuddyNode :=
  let node :=
    if i < total then
      { next := (i + 1) % 2 ^ 32
        prev := if i = 0 then FREE_LIST_END else (i + 2 ^ 32 - 1) % 2 ^ 32
        onList := 1 }
    else node
  let node := if i = 0 then { node with prev := FREE_LIST_END } else node
  if i = (total + 2 ^ 32 - 1) % 2 ^ 32 then { node with next := FREE_LIST_END } else node

def seedOrder (b : BuddyAllocator) (k : Nat) : Option BuddyAllocator :=
  let shift := 2 ^ k
  let largerShift := 2 ^ (k + 1)
  let blockCount := b.numFrames / shift - 2 * (b.numFrames / largerShift)
  let firstBlock := b.numFrames / largerShift * largerShift
  (List.range blockCount).foldlM
    (fun b blockIndex => b.pushHead k ((firstBlock + blockIndex * shift) % 2 ^ 32)) b

def init (regionBase regionSize frameTableSize : Nat) : Option BuddyAllocator :=
  (Checked.add 64 regionBase PAGE_SIZE).bind fun above =>
  (Checked.add 64 regionBase regionSize).bind fun regionStop =>
  let baseAddress := (above - 1) / PAGE_SIZE * PAGE_SIZE
  let regionEnd := regionStop / PAGE_SIZE * PAGE_SIZE
  let numFrames := if regionEnd > baseAddress then (regionEnd - baseAddress) / PAGE_SIZE else 0
  let requiredSize := numFrames * (FRAME_INFO_SIZE + BUDDY_NODE_SIZE)
  let numFrames :=
    if requiredSize > frameTableSize then frameTableSize / (FRAME_INFO_SIZE + BUDDY_NODE_SIZE)
    else numFrames
  let b := { b with baseAddress := baseAddress, numFrames := numFrames }
  if numFrames * FRAME_INFO_SIZE + numFrames * BUDDY_NODE_SIZE > frameTableSize then some b
  else
    let total := numFrames % 2 ^ 32
    let b :=
      { b with
        flags := fun i => if i < numFrames then .free else b.flags i
        nodes := fun i => seedNode total i (if i < numFrames then ⟨0, 0, 0⟩ else b.nodes i)
        freeLists := update b.freeLists 0 { head := 0, count := total } }
    ((List.range MAX_BUDDY_ORDER).foldlM seedOrder b).map fun b =>
      { b with freeFrames := b.numFrames, initialised := true }

end BuddyAllocator

end Nt61.Buddy
