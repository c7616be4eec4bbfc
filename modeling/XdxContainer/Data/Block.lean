import XdxContainer.Data.Slots

/-!
# Data/Block — arrays that are written without a look at their end

    own    x₀ x₁ … xₖ │ y … behind          a store at an index that is not own goes behind

A `Block` is the memory from the first slot of an array on: the slots of its own, and what was
stored behind them.  `Holds n xs` says that the first `n` slots are what was to be put there, and
that nothing is behind the array.

* `within_put_iff` — a store stays within the bounds when its index does.
* `pack_holds` — `array_pack` on a whole array keeps its entries and counts them.
-/

/-- An array, and what was stored behind it. -/
structure Block (α : Type) where
  own : Slots α
  behind : Slots α

namespace Block

variable {α : Type}

/-! ## The operations -/

/-- An array of zeroed slots. -/
def new (n : ℕ) : Block α := ⟨Slots.arrayNew n, []⟩

/-- The number of slots allocated for the array. -/
def allocated (b : Block α) : ℕ := b.own.length

/-- `arr[i] = x`. -/
def put (b : Block α) (i : ℕ) (x : α) : Block α :=
  if i < b.allocated then ⟨b.own.set i (some x), b.behind⟩
  else
    let j := i - b.allocated
    ⟨b.own, (b.behind ++ List.replicate (j + 1 - b.behind.length) none).set j (some x)⟩

/-- `memset(arr, 0, n * sizeof(*arr))`. -/
def zero (b : Block α) (n : ℕ) : Block α :=
  ⟨(Slots.arrayNew n).take b.allocated ++ b.own.drop n,
    Slots.arrayNew (n - b.allocated) ++ b.behind.drop (n - b.allocated)⟩

/-- The slots of the array and those behind it. -/
def cells (b : Block α) : Slots α := b.own ++ b.behind

/-- What is in the slot `i`. -/
def get (b : Block α) (i : ℕ) : Option α := b.cells[i]?.join

/-- The entries, in the order of the slots. -/
def entries (b : Block α) : List α := b.cells.reduceOption

/-- `array_pack(arr, &n)`, if it does not read behind what there is. -/
def pack (b : Block α) (n : ℕ) : Option (Block α × ℕ) := do
  let (cells, size) ← Slots.arrayPack b.cells n
  return (⟨cells.take b.allocated, cells.drop b.allocated⟩, size)

/-! ## Bounds -/

/-- Nothing was stored behind the array. -/
def Within (b : Block α) : Prop := b.behind = []

/-- **The array holds the items**: nothing was stored behind it, the count is theirs, and the first
slots are the items, one behind the other. -/
structure Holds (b : Block α) (n : ℕ) (xs : List α) : Prop where
  within : b.Within
  count : n = xs.length
  items : b.own.take n = xs.map some

variable {b : Block α} {n i : ℕ} {x : α}

/-- A new block has nothing stored behind it. -/
theorem within_new (n : ℕ) : (new n : Block α).Within := rfl

theorem allocated_new (n : ℕ) : (new n : Block α).allocated = n := List.length_replicate

theorem cells_of_within (h : b.Within) : b.cells = b.own := by
  rw [cells, h, List.append_nil]

/-- A store within the block. -/
theorem put_of_lt (h : i < b.allocated) : b.put i x = ⟨b.own.set i (some x), b.behind⟩ := if_pos h

/-- A store does not change the size. -/
theorem allocated_put (b : Block α) (i : ℕ) (x : α) : (b.put i x).allocated = b.allocated := by
  rw [put]
  split_ifs
  · exact List.length_set
  · rfl

/-- **A store stays within the bounds when its index does.** -/
theorem within_put_iff (h : b.Within) : (b.put i x).Within ↔ i < b.allocated := by
  constructor
  · intro hput
    by_contra hge
    rw [put, if_neg hge] at hput
    have hlen := congrArg List.length hput
    rw [List.length_set, List.length_append, List.length_replicate, List.length_nil] at hlen
    omega
  · intro hlt
    rw [put_of_lt hlt]
    exact h

/-- Zeroing the whole array. -/
theorem zero_of_within (h : b.Within) : b.zero b.allocated = new b.allocated := by
  have htake : (Slots.arrayNew b.allocated : Slots α).take b.allocated
      = Slots.arrayNew b.allocated := List.take_of_length_le (Nat.le_of_eq List.length_replicate)
  rw [zero, htake, h, Nat.sub_self, List.drop_nil, allocated, List.drop_length, List.append_nil]
  rfl

/-- **Packing a whole array** keeps its entries, in their order, and counts them. -/
theorem pack_holds (h : b.Within) :
    ∃ packed size, b.pack b.allocated = some (packed, size) ∧ packed.Holds size b.entries := by
  have hle : b.own.reduceOption.length ≤ b.own.length := List.reduceOption_length_le b.own
  have hpack : Slots.arrayPack b.cells b.allocated
      = some (Slots.filled b.own.length b.own.reduceOption, b.own.reduceOption.length) := by
    rw [cells_of_within h]
    exact Slots.arrayPack_eq b.own
  have hfull : (Slots.filled b.own.length b.own.reduceOption).length ≤ b.allocated :=
    Nat.le_of_eq (Slots.length_filled hle)
  refine ⟨_, _, congrArg (· >>= _) hpack, ?_, ?_, ?_⟩
  · exact List.drop_of_length_le hfull
  · rw [entries, cells_of_within h]
  · rw [entries, cells_of_within h]
    change ((Slots.filled b.own.length b.own.reduceOption).take b.allocated).take _ = _
    rw [List.take_of_length_le hfull, Slots.take_filled]

end Block
