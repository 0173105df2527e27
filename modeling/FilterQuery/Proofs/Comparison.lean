import FilterQuery.Proofs.Rounding
import FilterQuery.Value

/-!
# How values compare

With their integers rounded, all values stand in one line: by kind, then by number, then by
letters. Comparison follows that line but for two integers, which it compares exactly.

Main statement: comparison turns round with its arguments, and it is transitive except where a
double lies between two different integers that both round to it. Both are then equal to the
double and not to each other. Integers up to 2^53 never meet in this way.
-/

namespace FilterQuery.Value

/-- The number that a value stands for, on the scale of doubles. -/
def number : Value → Int
  | .null | .text _ => 0
  | .bool b => b.toNat
  | .int i => Binary64.orderKeyOfInt i.toInt
  | .float x => x.orderKey

def letters : Value → String
  | .text s => s
  | _ => ""

/-- The comparison that rounds every integer. -/
def compareRounded : Value → Value → Ordering :=
  compareLex (compareOn rank) (compareLex (compareOn number) (compareOn letters))

instance : Std.TransCmp compareRounded :=
  inferInstanceAs (Std.TransCmp (compareLex _ (compareLex _ _)))

variable {a b c : Value}

@[simp] theorem compare_int (i j : Int64) :
    (int i).compare (int j) = Ord.compare i.toInt j.toInt := rfl

theorem compareRounded_int (i j : Int64) : compareRounded (.int i) (.int j) =
    Ord.compare (Binary64.orderKeyOfInt i.toInt) (Binary64.orderKeyOfInt j.toInt) := by
  simp [compareRounded, compareLex, compareOn, rank, number, letters]

/-- Values of different kinds are compared by their kinds. -/
theorem compare_of_rank_ne (h : a.rank ≠ b.rank) : a.compare b = Ord.compare a.rank b.rank := by
  cases a <;> cases b <;> simp_all [rank, compare]

theorem compareRounded_of_rank_ne (h : a.rank ≠ b.rank) :
    compareRounded a b = Ord.compare a.rank b.rank := by
  have decided : Ord.compare a.rank b.rank ≠ .eq := by simpa using h
  simp only [compareRounded, compareLex, compareOn]
  cases first : Ord.compare a.rank b.rank with
  | eq => exact absurd first decided
  | lt => rfl
  | gt => rfl

theorem compare_toNat (p q : Bool) : Ord.compare (p.toNat : Int) q.toNat = Ord.compare p q := by
  cases p <;> cases q <;> rfl

/-- Beside anything but an integer, an integer counts as rounded. -/
theorem eq_compareRounded (h : a.int? = none ∨ b.int? = none) :
    a.compare b = compareRounded a b := by
  by_cases same : a.rank = b.rank
  · cases a <;> cases b <;>
      simp_all [rank, int?, compare, compareRounded, compareLex, compareOn, number, letters,
        Binary64.compare, compare_toNat]
  · rw [compare_of_rank_ne same, compareRounded_of_rank_ne same]

/-- Two values are two integers, or one of them is none. -/
theorem ints_or_not (a b : Value) :
    (∃ i j, a = .int i ∧ b = .int j) ∨ (a.int? = none ∨ b.int? = none) := by
  cases a <;> cases b <;> simp [int?]

/-- Turning the two around turns the answer around. -/
theorem compare_swap (a b : Value) : b.compare a = (a.compare b).swap := by
  rcases ints_or_not a b with ⟨i, j, rfl, rfl⟩ | apart
  · rw [compare_int, compare_int]
    exact Std.OrientedCmp.eq_swap
  · rw [eq_compareRounded apart, eq_compareRounded apart.symm]
    exact Std.OrientedCmp.eq_swap

/-- Rounding puts no two values into the other order. -/
theorem isLE_compareRounded (h : (a.compare b).isLE) : (compareRounded a b).isLE := by
  rcases ints_or_not a b with ⟨i, j, rfl, rfl⟩ | apart
  · rw [compare_int, Ordering.isLE_iff_ne_gt, Int.compare_eq_gt, Int.not_lt] at h
    rw [compareRounded_int, Ordering.isLE_iff_ne_gt, Int.compare_eq_gt, Int.not_lt]
    exact Binary64.orderKeyOfInt_mono h
  · rwa [← eq_compareRounded apart]

/-- Two different integers that round to the double between them. -/
def Meet (a b c : Value) : Prop :=
  ∃ i x j, a = .int i ∧ b = .float x ∧ c = .int j ∧ i ≠ j ∧
    Binary64.orderKeyOfInt i.toInt = x.orderKey ∧ Binary64.orderKeyOfInt j.toInt = x.orderKey

/-- Of two integers that meet at a double at least one is beyond 2^53. -/
theorem Meet.exists_large (h : Meet a b c) :
    ∃ i, (a = .int i ∨ c = .int i) ∧ 2 ^ 53 < i.toInt.natAbs := by
  obtain ⟨i, x, j, rfl, rfl, rfl, different, hi, hj⟩ := h
  rcases Nat.lt_or_ge (2 ^ 53) i.toInt.natAbs with large | small
  · exact ⟨i, .inl rfl, large⟩
  · rcases Nat.lt_or_ge (2 ^ 53) j.toInt.natAbs with large' | small'
    · exact ⟨j, .inr rfl, large'⟩
    · have same := Binary64.orderKeyOfInt_inj small small' (hi.trans hj.symm)
      exact absurd (Int64.toInt_inj.mp same) different

/-- Where values meet, both are equal to the one between and not to each other. -/
theorem Meet.compare (h : Meet a b c) :
    a.compare b = .eq ∧ b.compare c = .eq ∧ a.compare c ≠ .eq := by
  obtain ⟨i, x, j, rfl, rfl, rfl, different, hi, hj⟩ := h
  refine ⟨?_, ?_, ?_⟩
  · exact Int.compare_eq_eq.mpr hi
  · exact Int.compare_eq_eq.mpr hj.symm
  · rw [compare_int]
    intro same
    exact different (Int64.toInt_inj.mp (Int.compare_eq_eq.mp same))

/-- Between two integers in the wrong order there is nothing but a double to which both round. -/
theorem meet_of_int {i j : Int64} (first : ((int i).compare b).isLE)
    (second : (b.compare (.int j)).isLE) (wrong : j.toInt < i.toInt) :
    Meet (.int i) b (.int j) := by
  cases b with
  | int k =>
    rw [compare_int, Ordering.isLE_iff_ne_gt, Int.compare_eq_gt, Int.not_lt] at first second
    omega
  | float x =>
    have up : Binary64.orderKeyOfInt i.toInt ≤ x.orderKey := by
      rwa [Value.compare, Ordering.isLE_iff_ne_gt, Int.compare_eq_gt, Int.not_lt] at first
    have down : x.orderKey ≤ Binary64.orderKeyOfInt j.toInt := by
      rwa [Value.compare, Ordering.isLE_iff_ne_gt, Int.compare_eq_gt, Int.not_lt] at second
    have kept := Binary64.orderKeyOfInt_mono (Int.le_of_lt wrong)
    have different : i ≠ j := by
      rintro rfl
      omega
    exact ⟨i, x, j, rfl, rfl, rfl, different, by omega, by omega⟩
  | null => exact absurd first Bool.false_ne_true
  | bool p => exact absurd first Bool.false_ne_true
  | text s => exact absurd second Bool.false_ne_true

/-- Values that break the order of three meet. -/
theorem meet_of_not_isLE (first : (a.compare b).isLE) (second : (b.compare c).isLE)
    (wrong : a.compare c = .gt) : Meet a b c := by
  rcases ints_or_not a c with ⟨i, j, rfl, rfl⟩ | apart
  · exact meet_of_int first second (Int.compare_eq_gt.mp wrong)
  · have rounded := Std.TransCmp.isLE_trans (isLE_compareRounded first) (isLE_compareRounded second)
    rw [← eq_compareRounded apart, wrong] at rounded
    simp at rounded

theorem Meet.symm (h : Meet a b c) : Meet c b a := by
  obtain ⟨i, x, j, ha, hb, hc, different, hi, hj⟩ := h
  exact ⟨j, x, i, hc, hb, ha, different.symm, hj, hi⟩

/-- Values that break the equality of three meet. -/
theorem meet_of_ne_eq (first : a.compare b = .eq) (second : b.compare c = .eq)
    (wrong : a.compare c ≠ .eq) : Meet a b c := by
  have first' : (a.compare b).isLE := Ordering.isLE_of_eq_eq first
  have second' : (b.compare c).isLE := Ordering.isLE_of_eq_eq second
  cases outcome : a.compare c with
  | eq => exact absurd outcome wrong
  | gt => exact meet_of_not_isLE first' second' outcome
  | lt =>
    -- Seen from the other end the two integers are in the wrong order.
    have back : (c.compare b).isLE := by simp [compare_swap b c, second]
    have back' : (b.compare a).isLE := by simp [compare_swap a b, first]
    exact (meet_of_not_isLE back back' (by simp [compare_swap a c, outcome])).symm

/-- Comparison is a total preorder but for integers that meet at a double. -/
theorem compare_preorder_except_meet (a b c : Value) :
    b.compare a = (a.compare b).swap ∧
    (a.compare b ≠ .gt → b.compare c ≠ .gt → a.compare c = .gt → Meet a b c) ∧
    (a.compare b = .eq → b.compare c = .eq → a.compare c ≠ .eq → Meet a b c) ∧
    (Meet a b c → a.compare b = .eq ∧ b.compare c = .eq ∧ a.compare c ≠ .eq ∧
      ∃ i, (a = .int i ∨ c = .int i) ∧ 2 ^ 53 < i.toInt.natAbs) := by
  refine ⟨compare_swap a b, ?_, meet_of_ne_eq, ?_⟩
  · intro first second
    exact meet_of_not_isLE (Ordering.isLE_iff_ne_gt.mpr first) (Ordering.isLE_iff_ne_gt.mpr second)
  · intro h
    exact ⟨h.compare.1, h.compare.2.1, h.compare.2.2, h.exists_large⟩

/-- A truth value, NaN and a text stand in order, since no integers meet among them. -/
theorem compare_preorder_except_meet_sample :
    (bool true).compare (float ⟨0x7FF8000000000000⟩) ≠ .gt ∧
    (float ⟨0x7FF8000000000000⟩).compare (text "") ≠ .gt ∧
    (bool true).compare (text "") ≠ .gt := by
  refine ⟨by decide, by decide, fun wrong => ?_⟩
  obtain ⟨i, x, j, impossible, -⟩ := (compare_preorder_except_meet (.bool true)
    (.float ⟨0x7FF8000000000000⟩) (.text "")).2.1 (by decide) (by decide) wrong
  exact absurd impossible (by simp)

/-- Both 2^53 and 2^53 + 1 are equal to the double 2^53, and the second is greater. -/
theorem not_compare_preorder :
    ¬ ∀ a b c : Value, b.compare a = (a.compare b).swap ∧
      (a.compare b ≠ .gt → b.compare c ≠ .gt → a.compare c ≠ .gt) ∧
      (a.compare b = .eq → b.compare c = .eq → a.compare c = .eq) := by
  intro claimed
  have transitive := (claimed (.int 9007199254740993) (.float ⟨0x4340000000000000⟩)
    (.int 9007199254740992)).2.1
  exact transitive (by decide) (by decide) (by decide)

end FilterQuery.Value
