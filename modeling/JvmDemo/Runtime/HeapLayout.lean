import JvmDemo.Lib.Allocation
import JvmDemo.Runtime.Heap

/-!
# The layout of the heap

The constructor of `Heap`, on the words that the machine computes with: sizes
are `size_t`, `RoundUp` may wrap around, and an address is rounded as a signed
`intptr_t`.  `HeapMembers.toHeap` forgets the width of the members and leads to
the model of `JvmDemo.Runtime.Heap`.

Whatever maximal size is asked for, the four spaces that the constructor lays
out follow each other inside the block.
-/

namespace JvmDemo.Runtime

open JvmDemo.Lib

/-! ## Rounding -/

/-- `RoundDown` on `size_t`. -/
def roundDownWord (x n : DWord) : DWord := x &&& -n

/-- `RoundUp` on `size_t`. -/
def roundUpWord (x n : DWord) : DWord := roundDownWord (x + n - 1) n

/-- `RoundUp` on `intptr_t`: a signed sum that overflows is undefined. -/
def roundUpPointer (x n : DWord) : Exec DWord :=
  if BitVec.saddOverflow x n then undefined "signed overflow" else pure (roundUpWord x n)

theorem toNat_roundDownWord (x : DWord) : (roundDownWord x 8).toNat = roundDown x.toNat 8 := by
  have rounded := @toNat_and_neg_twoPow 64 3 x (by decide)
  have eight : BitVec.twoPow 64 3 = 8 := by decide
  rw [eight] at rounded
  exact rounded

theorem toNat_roundUpWord (x : DWord) : (roundUpWord x 8).toNat = roundUp x.toNat 8 := by
  have sum : (x + 8 - 1).toNat = (x.toNat + 8 - 1) % 2 ^ 64 := by
    rw [BitVec.toNat_sub, BitVec.toNat_add]
    have eight : (8 : DWord).toNat = 8 := rfl
    have one : (1 : DWord).toNat = 1 := rfl
    omega
  rw [roundUpWord, toNat_roundDownWord, sum, roundUp]

theorem roundDown_spec (x : Nat) : roundDown x 8 % 8 = 0 ∧ roundDown x 8 ≤ x ∧ x < roundDown x 8 + 8 := by
  rw [roundDown]
  omega

/-- The sum does not overflow for an address that is not just below the middle of
the address space. -/
theorem roundUpPointer_eq {x : DWord} (clear : x.toNat + 8 < 2 ^ 63 ∨ 2 ^ 63 ≤ x.toNat) :
    roundUpPointer x 8 = .ok (roundUpWord x 8) := by
  have noOverflow : ¬ BitVec.saddOverflow x 8 = true := by
    have eight : (8 : DWord).toInt = 8 := by decide
    have bound := x.isLt
    simp only [BitVec.saddOverflow, eight, BitVec.toInt_eq_toNat_cond, Bool.or_eq_true,
      decide_eq_true_iff]
    split <;> omega
  rw [roundUpPointer, if_neg noOverflow]
  rfl

/-! ## The constructor -/

/-- The members of `Heap`. -/
structure HeapMembers where
  absoluteMaxSize : DWord
  bytesAllocated : DWord
  objectsAllocated : DWord
  heapBase : DWord
  freshStart : DWord
  freshPos : DWord
  freshSize : DWord
  fromPtr : DWord
  toPtr : DWord
  survivorSize : DWord
  oldStart : DWord
  deriving DecidableEq, Repr

namespace HeapMembers

/-- `kMinHeapSize`. -/
def minHeapSize : DWord := 1 <<< 12

/-- `kObjectAlignment`. -/
def objectAlignment : DWord := 1 <<< 3

/-- `std::max`. -/
def maxWord (a b : DWord) : DWord := if a < b then b else a

/-- What the constructor makes of `maxSize`. -/
def absoluteMaxSizeOf (maxSize : DWord) : DWord :=
  maxWord minHeapSize (roundUpWord maxSize objectAlignment)

/-- The assignments of the constructor behind the one to `heap_base_`. -/
def spaces (absoluteMaxSize heapBase : DWord) : HeapMembers :=
  let survivorSize := roundDownWord ((absoluteMaxSize >>> 2) / 10) objectAlignment
  let freshSize := roundDownWord (survivorSize <<< 3) objectAlignment
  let fromPtr := heapBase + freshSize
  let toPtr := fromPtr + survivorSize
  { absoluteMaxSize := absoluteMaxSize
    bytesAllocated := 0
    objectsAllocated := 0
    heapBase := heapBase
    freshStart := heapBase
    freshPos := heapBase
    freshSize := freshSize
    fromPtr := fromPtr
    toPtr := toPtr
    survivorSize := survivorSize
    oldStart := toPtr + survivorSize }

/-- The constructor. -/
def construct {σ : Type} (libc : Allocator Fault σ) (maxSize : DWord) (state : σ) :
    Exec (HeapMembers × σ) := do
  let absoluteMaxSize := absoluteMaxSizeOf maxSize
  let (block, state) ← libc.calloc absoluteMaxSize state
  let heapBase ← roundUpPointer block objectAlignment
  pure (spaces absoluteMaxSize heapBase, state)

/-- The members as numbers. -/
def toHeap (members : HeapMembers) : Heap :=
  { absoluteMaxSize := members.absoluteMaxSize.toNat
    bytesAllocated := members.bytesAllocated.toNat
    objectsAllocated := members.objectsAllocated.toNat
    heapBase := members.heapBase.toNat
    freshStart := members.freshStart.toNat
    freshPos := members.freshPos.toNat
    freshSize := members.freshSize.toNat
    fromPtr := members.fromPtr.toNat
    toPtr := members.toPtr.toNat
    survivorSize := members.survivorSize.toNat
    oldStart := members.oldStart.toNat }

end HeapMembers

/-! ## Sizes -/

open HeapMembers

theorem toNat_absoluteMaxSizeOf (maxSize : DWord) :
    (absoluteMaxSizeOf maxSize).toNat =
      max Heap.minHeapSize (roundUp maxSize.toNat Heap.objectAlignment) := by
  have rounded := toNat_roundUpWord maxSize
  have least : minHeapSize.toNat = Heap.minHeapSize := by decide
  rw [absoluteMaxSizeOf, maxWord, Heap.objectAlignment, ← rounded, ← least]
  split
  case isTrue less =>
    have bound : minHeapSize.toNat < (roundUpWord maxSize objectAlignment).toNat := less
    exact (Nat.max_eq_right (Nat.le_of_lt bound)).symm
  case isFalse notLess =>
    have bound : ¬ minHeapSize.toNat < (roundUpWord maxSize objectAlignment).toNat := notLess
    exact (Nat.max_eq_left (Nat.le_of_not_lt bound)).symm

/-- The block is a multiple of the alignment and not smaller than a page. -/
theorem absoluteMaxSizeOf_spec (maxSize : DWord) :
    4096 ≤ (absoluteMaxSizeOf maxSize).toNat ∧ (absoluteMaxSizeOf maxSize).toNat % 8 = 0 := by
  have rounded := roundDown_spec ((maxSize.toNat + 8 - 1) % 2 ^ 64)
  rw [toNat_absoluteMaxSizeOf, Heap.minHeapSize, Heap.objectAlignment, roundUp]
  omega

theorem toNat_survivorSize (total base : DWord) :
    (spaces total base).survivorSize.toNat = roundDown (total.toNat / 4 / 10) 8 := by
  have ten : (10 : DWord).toNat = 10 := rfl
  have tenth : ((total >>> 2) / 10).toNat = total.toNat / 4 / 10 := by
    rw [BitVec.toNat_udiv, BitVec.toNat_ushiftRight, Nat.shiftRight_eq_div_pow, ten]
  rw [← tenth]
  exact toNat_roundDownWord _

theorem toNat_freshSize (total base : DWord) :
    (spaces total base).freshSize.toNat =
      roundDown ((spaces total base).survivorSize.toNat * 8) 8 := by
  have bound := total.isLt
  have survivor := toNat_survivorSize total base
  have rounded := roundDown_spec (total.toNat / 4 / 10)
  have shifted : ((spaces total base).survivorSize <<< 3).toNat =
      (spaces total base).survivorSize.toNat * 8 := by
    rw [BitVec.toNat_shiftLeft, Nat.shiftLeft_eq]
    omega
  rw [← shifted]
  exact toNat_roundDownWord _

/-- The sizes of the spaces, for a block of a given size. -/
structure SpaceSizes (total survivorSize freshSize : Nat) : Prop where
  survivor_pos : 0 < survivorSize
  survivor_aligned : survivorSize % 8 = 0
  fresh : freshSize = 8 * survivorSize
  young : 4 * (freshSize + survivorSize + survivorSize) ≤ total

theorem spaceSizes {total : DWord} (large : 4096 ≤ total.toNat) (base : DWord) :
    SpaceSizes total.toNat (spaces total base).survivorSize.toNat
      (spaces total base).freshSize.toNat := by
  have survivor := toNat_survivorSize total base
  have fresh := toNat_freshSize total base
  have survivorRounded := roundDown_spec (total.toNat / 4 / 10)
  have freshRounded := roundDown_spec ((spaces total base).survivorSize.toNat * 8)
  constructor <;> omega

/-- Where the spaces start and end, if the young ones end in the address space. -/
structure SpaceStarts (total base : DWord) : Prop where
  fromPtr : (spaces total base).fromPtr.toNat = base.toNat + (spaces total base).freshSize.toNat
  toPtr : (spaces total base).toPtr.toNat =
    (spaces total base).fromPtr.toNat + (spaces total base).survivorSize.toNat
  oldStart : (spaces total base).oldStart.toNat =
    (spaces total base).toPtr.toNat + (spaces total base).survivorSize.toNat

theorem spaceStarts {total base : DWord} (large : 4096 ≤ total.toNat)
    (room : base.toNat + total.toNat / 4 < 2 ^ 64) : SpaceStarts total base := by
  have young := (spaceSizes large base).young
  have fromPtr : (spaces total base).fromPtr.toNat =
      base.toNat + (spaces total base).freshSize.toNat := by
    apply BitVec.toNat_add_of_lt
    show base.toNat + (spaces total base).freshSize.toNat < 2 ^ 64
    omega
  have toPtr : (spaces total base).toPtr.toNat =
      (spaces total base).fromPtr.toNat + (spaces total base).survivorSize.toNat := by
    apply BitVec.toNat_add_of_lt
    show (spaces total base).fromPtr.toNat + (spaces total base).survivorSize.toNat < 2 ^ 64
    omega
  have oldStart : (spaces total base).oldStart.toNat =
      (spaces total base).toPtr.toNat + (spaces total base).survivorSize.toNat := by
    apply BitVec.toNat_add_of_lt
    show (spaces total base).toPtr.toNat + (spaces total base).survivorSize.toNat < 2 ^ 64
    omega
  exact ⟨fromPtr, toPtr, oldStart⟩

/-- In numbers, the constructor is that of `Heap`. -/
theorem toHeap_spaces {maxSize block : DWord}
    (room : block.toNat + (absoluteMaxSizeOf maxSize).toNat / 4 + 8 < 2 ^ 64) :
    (spaces (absoluteMaxSizeOf maxSize) (roundUpWord block objectAlignment)).toHeap =
      Heap.ofBlock block.toNat maxSize.toNat := by
  have total := toNat_absoluteMaxSizeOf maxSize
  have base : (roundUpWord block objectAlignment).toNat = roundUp block.toNat 8 :=
    toNat_roundUpWord block
  have rounded := roundDown_spec ((block.toNat + 8 - 1) % 2 ^ 64)
  have starts : SpaceStarts (absoluteMaxSizeOf maxSize) (roundUpWord block objectAlignment) := by
    apply spaceStarts (absoluteMaxSizeOf_spec maxSize).1
    rw [base, roundUp]
    omega
  have survivor := toNat_survivorSize (absoluteMaxSizeOf maxSize) (roundUpWord block objectAlignment)
  have fresh := toNat_freshSize (absoluteMaxSizeOf maxSize) (roundUpWord block objectAlignment)
  rw [total] at survivor
  rw [survivor] at fresh
  have fromPtr := starts.fromPtr
  rw [base, fresh] at fromPtr
  have toPtr := starts.toPtr
  rw [fromPtr, survivor] at toPtr
  have oldStart := starts.oldStart
  rw [toPtr, survivor] at oldStart
  simp only [toHeap, Heap.ofBlock, Heap.mk.injEq]
  exact ⟨total, rfl, rfl, base, base, base, fresh, fromPtr, toPtr, survivor, oldStart⟩

/-! ## The layout -/

/-- The addresses from `start` up to but without `stop`. -/
structure Region where
  start : Nat
  stop : Nat
  deriving DecidableEq, Repr

/-- The region has an address. -/
def Region.Contains (region : Region) (address : Nat) : Prop :=
  region.start ≤ address ∧ address < region.stop

/-- The fresh space, the two survivor spaces and the old space, which takes the rest
of the block. -/
def HeapMembers.regions (members : HeapMembers) : List Region :=
  [⟨members.freshStart.toNat, members.fromPtr.toNat⟩,
    ⟨members.fromPtr.toNat, members.toPtr.toNat⟩,
    ⟨members.toPtr.toNat, members.oldStart.toNat⟩,
    ⟨members.oldStart.toNat, members.heapBase.toNat + members.absoluteMaxSize.toNat⟩]

/-- The spaces lie side by side in a block. -/
structure LaidOutIn (block : DWord) (members : HeapMembers) : Prop where
  consecutive : members.regions.IsChain fun region next => region.stop = next.start
  disjoint : members.regions.Pairwise fun region later =>
    ∀ address, region.Contains address → ¬ later.Contains address
  nonempty : ∀ region ∈ members.regions, region.start < region.stop
  aligned : ∀ region ∈ members.regions, region.start % 8 = 0
  inside : ∀ region ∈ members.regions,
    block.toNat ≤ region.start ∧ region.stop ≤ block.toNat + members.absoluteMaxSize.toNat
  freshSpace : members.fromPtr.toNat = members.freshStart.toNat + members.freshSize.toNat
  fromSpace : members.toPtr.toNat = members.fromPtr.toNat + members.survivorSize.toNat
  toSpace : members.oldStart.toNat = members.toPtr.toNat + members.survivorSize.toNat
  survivor_pos : 0 < members.survivorSize.toNat
  fresh : members.freshSize.toNat = 8 * members.survivorSize.toNat
  young : 4 * (members.freshSize.toNat + members.survivorSize.toNat + members.survivorSize.toNat) ≤
    members.absoluteMaxSize.toNat

/-- Regions in order are disjoint. -/
theorem disjoint_of_stop_le {region later : Region} (ordered : region.stop ≤ later.start)
    (address : Nat) (inRegion : region.Contains address) : ¬ later.Contains address := by
  rintro ⟨above, -⟩
  exact Nat.lt_irrefl _ (Nat.lt_of_lt_of_le inRegion.2 (Nat.le_trans ordered above))

/-- An aligned address is its own base. -/
theorem roundUpWord_of_aligned {block : DWord} (aligned : block.toNat % 8 = 0) :
    roundUpWord block objectAlignment = block := by
  apply BitVec.eq_of_toNat_eq
  have rounded : (roundUpWord block objectAlignment).toNat = roundUp block.toNat 8 :=
    toNat_roundUpWord block
  rw [rounded, roundUp, roundDown]
  omega

theorem laidOutIn_spaces {total block : DWord} (large : 4096 ≤ total.toNat)
    (aligned : block.toNat % 8 = 0) (room : block.toNat + total.toNat ≤ 2 ^ 64) :
    LaidOutIn block (spaces total block) := by
  have sizes := spaceSizes large block
  have starts := @spaceStarts total block large (by omega)
  have base : (spaces total block).heapBase = block := rfl
  have fresh : (spaces total block).freshStart = block := rfl
  have size : (spaces total block).absoluteMaxSize = total := rfl
  have survivorPos := sizes.survivor_pos
  have survivorAligned := sizes.survivor_aligned
  have freshSize := sizes.fresh
  have young := sizes.young
  have fromPtr := starts.fromPtr
  have toPtr := starts.toPtr
  have oldStart := starts.oldStart
  constructor
  case consecutive => simp [regions]
  case disjoint =>
    have ordered : (spaces total block).regions.Pairwise fun region later =>
        region.stop ≤ later.start := by
      simp only [regions, List.pairwise_cons, List.forall_mem_cons, List.not_mem_nil, false_implies,
        implies_true, and_true, List.Pairwise.nil]
      omega
    exact ordered.imp disjoint_of_stop_le
  case nonempty =>
    simp only [regions, List.forall_mem_cons, fresh, base, size, List.not_mem_nil, false_implies,
      implies_true, and_true]
    omega
  case aligned =>
    simp only [regions, List.forall_mem_cons, fresh, base, size, List.not_mem_nil, false_implies,
      implies_true, and_true]
    omega
  case inside =>
    simp only [regions, List.forall_mem_cons, fresh, base, size, List.not_mem_nil, false_implies,
      implies_true, and_true]
    omega
  case freshSpace => exact fromPtr
  case fromSpace => exact toPtr
  case toSpace => exact oldStart
  case survivor_pos => exact survivorPos
  case fresh => exact freshSize
  case young => exact young

/-- The block ends in the address space and does not stretch across its middle,
where addresses change their sign as `intptr_t`. -/
def Addressable (block : DWord) (size : Nat) : Prop :=
  block.toNat + size ≤ 2 ^ 63 ∨ 2 ^ 63 ≤ block.toNat ∧ block.toNat + size ≤ 2 ^ 64

theorem construct_eq {σ : Type} {libc : Allocator Fault σ} {maxSize block : DWord} {state after : σ}
    (allocated : libc.calloc (absoluteMaxSizeOf maxSize) state = .ok (block, after))
    (clear : block.toNat + 8 < 2 ^ 63 ∨ 2 ^ 63 ≤ block.toNat) :
    construct libc maxSize state =
      .ok (spaces (absoluteMaxSizeOf maxSize) (roundUpWord block objectAlignment), after) := by
  have rounded : roundUpPointer block objectAlignment = .ok (roundUpWord block objectAlignment) :=
    roundUpPointer_eq clear
  simp only [construct, allocated, Exec.bind_ok, rounded]
  rfl

/-- For every maximal size, the constructor lays the four spaces out in the block
that it gets. -/
theorem construct_laidOutIn {σ : Type} {libc : Allocator Fault σ} {maxSize block : DWord}
    {state after : σ} (allocated : libc.calloc (absoluteMaxSizeOf maxSize) state = .ok (block, after))
    (aligned : block.toNat % 8 = 0)
    (addressable : Addressable block (absoluteMaxSizeOf maxSize).toNat) :
    ∃ members, construct libc maxSize state = .ok (members, after) ∧
      members.absoluteMaxSize = absoluteMaxSizeOf maxSize ∧ LaidOutIn block members := by
  have large := (absoluteMaxSizeOf_spec maxSize).1
  rw [Addressable] at addressable
  have constructed := construct_eq allocated (by omega)
  rw [roundUpWord_of_aligned aligned] at constructed
  exact ⟨_, constructed, rfl, laidOutIn_spaces large aligned (by omega)⟩

theorem construct_laidOutIn_page :
    ∃ members,
      construct ⟨fun _ state => .ok (0x10000, state), fun start _ state => .ok (start, state)⟩
          4097 () = .ok (members, ()) ∧
        members.absoluteMaxSize = absoluteMaxSizeOf 4097 ∧ LaidOutIn 0x10000 members :=
  construct_laidOutIn rfl (by decide) (.inl (by decide))

end JvmDemo.Runtime
