import JvmDemo.Lib.Memory
import JvmDemo.Runtime.Slots

/-!
# The object heap

Objects live in a byte memory.  `Heap` is a bump allocator over the fresh space
of one block; `realloc` is taken to return its argument.  An object starts with
the header of the C++ class `Object`, and the accessors of `DataObject` compute
the address of a field from its slot id.
-/

namespace JvmDemo.Runtime

open JvmDemo.Lib

/-! ## Object layout -/

namespace Object

/-- Where `age_`, `forwarded_` and `remembered_` stand, after the virtual table
pointer. -/
def ageOffset : Nat := 8

def forwardedOffset : Nat := 9

def rememberedOffset : Nat := 10

/-- Where `klass_` stands. -/
def klassOffset : Nat := 16

/-- The bytes of the header: the last member, `lock_`, ends here. -/
def headerSize : Nat := 28

end Object

namespace DataObject

/-- Where `data_` stands: derived members start in the tail padding of
`Object`. -/
def dataOffset : Nat := Object.headerSize

/-- `data_ + slot_id * sizeof(Slot)`: the product is added to a `Slot*`, which
scales it by the size of a slot once more. -/
def fieldAddress (object : DWord) (slotId : BitVec 32) : Nat :=
  (object + BitVec.ofNat 64 dataOffset + slotId.signExtend 64 * 4 * 4).toNat

theorem toNat_fieldAddress (object : DWord) (slotId : BitVec 32) :
    fieldAddress object slotId =
      (object.toNat + 28 + 16 * (slotId.signExtend 64).toNat) % 2 ^ 64 := by
  have four : (4 : BitVec 64).toNat = 4 := rfl
  simp only [fieldAddress, dataOffset, Object.headerSize, BitVec.toNat_add, BitVec.toNat_mul,
    BitVec.toNat_ofNat, four]
  omega

/-- `GetIntField`. -/
def getIntField (memory : Memory) (object : DWord) (slotId : BitVec 32) : Word :=
  memory.read32 (fieldAddress object slotId)

/-- `SetIntField`. -/
def setIntField (memory : Memory) (object : DWord) (slotId : BitVec 32) (value : Word) : Memory :=
  memory.write32 (fieldAddress object slotId) value

/-- `GetLongField`: the low half is converted to 64 bits with its sign. -/
def getLongField (memory : Memory) (object : DWord) (slotId : BitVec 32) : DWord :=
  let low := memory.read32 (fieldAddress object slotId)
  let high := memory.read32 (fieldAddress object slotId + 4)
  high.signExtend 64 <<< 32 ||| low.signExtend 64

/-- `SetLongField`. -/
def setLongField (memory : Memory) (object : DWord) (slotId : BitVec 32) (value : DWord) :
    Memory :=
  (memory.write32 (fieldAddress object slotId) value.low).write32
    (fieldAddress object slotId + 4) value.high

/-- `GetFloatField`, on the bit pattern. -/
def getFloatField := getIntField

/-- `SetFloatField`. -/
def setFloatField := setIntField

/-- `GetDoubleField`, on the bit pattern. -/
def getDoubleField := getLongField

/-- `SetDoubleField`. -/
def setDoubleField := setLongField

/-- `GetRefField`. -/
def getRefField := getLongField

/-- `SetRefField`. -/
def setRefField := setLongField

/-- The getter of a kind. -/
def getField (memory : Memory) (object : DWord) (slotId : BitVec 32) : Kind → Value
  | .int => .int (getIntField memory object slotId)
  | .float => .float (getFloatField memory object slotId)
  | .long => .long (getLongField memory object slotId)
  | .double => .double (getDoubleField memory object slotId)
  | .ref => .ref (getRefField memory object slotId)

/-- The setter of a value's kind. -/
def setField (memory : Memory) (object : DWord) (slotId : BitVec 32) : Value → Memory
  | .int val => setIntField memory object slotId val
  | .float bits => setFloatField memory object slotId bits
  | .long val => setLongField memory object slotId val
  | .double bits => setDoubleField memory object slotId bits
  | .ref address => setRefField memory object slotId address

end DataObject

/-! ## The allocator -/

/-- `RoundDown` for a power of two. -/
def roundDown (x n : Nat) : Nat := x - x % n

/-- `RoundUp` for a power of two, in `size_t`. -/
def roundUp (x n : Nat) : Nat := roundDown ((x + n - 1) % 2 ^ 64) n

/-- The state of the allocator; addresses and sizes in bytes. -/
structure Heap where
  absoluteMaxSize : Nat
  bytesAllocated : Nat
  objectsAllocated : Nat
  heapBase : Nat
  freshStart : Nat
  freshPos : Nat
  freshSize : Nat
  fromPtr : Nat
  toPtr : Nat
  survivorSize : Nat
  oldStart : Nat
  deriving DecidableEq, Repr

namespace Heap

/-- `kMinHeapSize`. -/
def minHeapSize : Nat := 2 ^ 12

/-- `kObjectAlignment`. -/
def objectAlignment : Nat := 8

/-- The constructor, given the block that `calloc` returned. -/
def ofBlock (block maxSize : Nat) : Heap :=
  let absoluteMaxSize := max minHeapSize (roundUp maxSize objectAlignment)
  let heapBase := roundUp block objectAlignment
  let survivorSize := roundDown (absoluteMaxSize / 4 / 10) objectAlignment
  let freshSize := roundDown (survivorSize * 8) objectAlignment
  { absoluteMaxSize := absoluteMaxSize
    bytesAllocated := 0
    objectsAllocated := 0
    heapBase := heapBase
    freshStart := heapBase
    freshPos := heapBase
    freshSize := freshSize
    fromPtr := heapBase + freshSize
    toPtr := heapBase + freshSize + survivorSize
    survivorSize := survivorSize
    oldStart := heapBase + freshSize + survivorSize + survivorSize }

/-- The header writes of `AllocObject`. -/
def initHeader (memory : Memory) (object : Nat) (klass : DWord) : Memory :=
  (((memory.write8 (object + Object.ageOffset) 0).write8 (object + Object.forwardedOffset) 0).write8
    (object + Object.rememberedOffset) 0).write64 (object + Object.klassOffset) klass

/-- `AllocObject`; a request that does not fit in the fresh space gives null. -/
def allocObject (heap : Heap) (memory : Memory) (klass : DWord) (objSize : Nat) :
    DWord × Heap × Memory :=
  let objSize := roundUp objSize objectAlignment
  if heap.freshStart + heap.freshSize < heap.freshPos + objSize then (0, heap, memory)
  else
    (BitVec.ofNat 64 heap.freshPos,
      { heap with
        freshPos := heap.freshPos + objSize
        bytesAllocated := (heap.bytesAllocated + objSize) % 2 ^ 64
        objectsAllocated := (heap.objectsAllocated + 1) % 2 ^ 64 },
      initHeader memory heap.freshPos klass)

end Heap

end JvmDemo.Runtime
