import Mathlib.Data.List.Basic
import FilterQuery.Proofs.Inquiry
import FilterQuery.Proofs.Parts

/-!
# Pages

A page is asked for by a number and a size, and is a limit and an offset in the query. Main
statement: pages of one size lie side by side, so that cutting a list of rows into its pages and
putting these together again gives the list, and the result of a page says its number and its size.
All of it is done with words of sixty-four bits, of which only what fits sixty-three is kept as a
count, and neither a step that overflows nor a division by zero is ever taken.
-/

namespace FilterQuery

/-- The largest count that is kept. -/
def Value.maxCount : Nat := (1 <<< 63) - 1

namespace Value

theorem lt_size_of_le_maxCount {n : Nat} (h : n ≤ maxCount) : n < UInt64.size := by
  simp only [maxCount, UInt64.size] at *
  omega

theorem count?_ofCount_min (n : UInt64) :
    (ofCount n).count? = some (.ofNat (min n.toNat maxCount)) := by
  have stored : (Int64.ofInt ((min n.toNat maxCount : Nat) : Int)).toInt =
      (min n.toNat maxCount : Nat) :=
    Int64.toInt_ofInt_of_le (by omega) (by simp only [maxCount]; omega)
  have kept : ofCount n = .int (.ofInt ((min n.toNat maxCount : Nat) : Int)) := rfl
  rw [kept, count?, stored, if_pos (Int.natCast_nonneg _), Int.toNat_natCast]

end Value

open Value (maxCount)

/-! ### Steps that can fail -/

namespace Word

theorem toNat_max (a b : UInt64) : (max a b).toNat = max a.toNat b.toNat := by
  change (if a ≤ b then b else a).toNat = _
  split
  · next le => exact (Nat.max_eq_right (UInt64.le_iff_toNat_le.mp le)).symm
  · next gt => exact (Nat.max_eq_left (Nat.le_of_not_le (mt UInt64.le_iff_toNat_le.mpr gt))).symm

theorem toNat_min (a b : UInt64) : (min a b).toNat = min a.toNat b.toNat := by
  change (if a ≤ b then a else b).toNat = _
  split
  · next le => exact (Nat.min_eq_left (UInt64.le_iff_toNat_le.mp le)).symm
  · next gt => exact (Nat.min_eq_right (Nat.le_of_not_le (mt UInt64.le_iff_toNat_le.mpr gt))).symm

def sub? (a b : UInt64) : Option UInt64 := if b ≤ a then some (a - b) else none

def add? (a b : UInt64) : Option UInt64 :=
  if a.toNat + b.toNat < UInt64.size then some (a + b) else none

def div? (a b : UInt64) : Option UInt64 := if b = 0 then none else some (a / b)

/-- A product that does not fit becomes the largest word. -/
def mulUpTo (a b : UInt64) : UInt64 := .ofNat (min (a.toNat * b.toNat) (UInt64.size - 1))

end Word

/-- The number of the page that begins after some rows. A page of no rows is the first. -/
def pageNumberOf (rows skipped : Nat) : Nat := if rows = 0 then 1 else skipped / rows + 1

namespace Modifiers

/-- The rows before a page, each step taken only if it does not fall below zero. -/
def rowsBeforeStepwise? (number size : UInt64) : Option UInt64 :=
  (Word.sub? (max number 1) 1).map (Word.mulUpTo size)

variable (m : Modifiers)

/-- The page number, each step taken only if it neither overflows nor divides by zero. -/
def pageNumberStepwise? : Option (Option UInt64) :=
  if m.paged then
    let limit := m.limitCount?.getD 0
    if limit = 0 then some (some 1)
    else ((Word.div? (m.offsetCount?.getD 0) limit).bind (Word.add? · 1)).map some
  else some none

/-- The rows that limit and offset leave. -/
def cut {β : Type} (rows : List β) : List β :=
  let later := rows.drop (m.offsetCount?.getD 0).toNat
  match m.limitCount? with
  | none => later
  | some limit => later.take limit.toNat

/-- Whether limit and offset leave the row at this position. -/
def Shows (position : Nat) : Prop :=
  ∃ limit offset, m.limitCount? = some limit ∧ m.offsetCount? = some offset ∧
    offset.toNat ≤ position ∧ position < offset.toNat + limit.toNat

variable {m} {number size : UInt64}

/-! ### The number of a page -/

theorem pageNumberOf_of_ne_zero {rows : UInt64} (some_rows : rows ≠ 0) (skipped : UInt64) :
    pageNumberOf rows.toNat skipped.toNat = (skipped / rows).toNat + 1 := by
  rw [UInt64.toNat_div]
  refine if_neg fun none => ?_
  exact some_rows (UInt64.toNat_inj.mp none)

/-- The word has the page number, or what is left of it after an overflow. -/
theorem toNat_pageNumber (rows skipped : UInt64) :
    (if rows = 0 then 1 else skipped / rows + 1).toNat =
      pageNumberOf rows.toNat skipped.toNat % UInt64.size := by
  by_cases none : rows = 0
  · rw [none]
    rfl
  · rw [if_neg none, pageNumberOf_of_ne_zero none, UInt64.toNat_add]
    rfl

/-- Of all counts only one row to a page, after as many rows as can be counted, is too much. -/
theorem pageNumberOf_lt_size_iff (rows : Nat) {skipped : Nat} (small : skipped < UInt64.size) :
    pageNumberOf rows skipped < UInt64.size ↔ ¬ (rows = 1 ∧ skipped = UInt64.size - 1) := by
  unfold pageNumberOf
  simp only [UInt64.size] at *
  rcases Nat.lt_trichotomy rows 1 with none | one | more
  · obtain rfl : rows = 0 := by omega
    simp
  · obtain rfl := one
    rw [if_neg Nat.one_ne_zero, Nat.div_one]
    omega
  · have half : skipped / rows ≤ skipped / 2 := Nat.div_le_div_left more Nat.two_pos
    rw [if_neg (by omega)]
    omega

/-- The steps fail if and only if the page number is no word. -/
theorem pageNumberStepwise?_eq (m : Modifiers) (paged : m.paged) : m.pageNumberStepwise? =
    if pageNumberOf (m.limitCount?.getD 0).toNat (m.offsetCount?.getD 0).toNat < UInt64.size
    then some m.pageNumber? else none := by
  unfold pageNumberStepwise? pageNumber?
  rw [if_pos paged, if_pos paged]
  dsimp only
  generalize m.limitCount?.getD 0 = rows
  generalize m.offsetCount?.getD 0 = skipped
  by_cases none : rows = 0
  · rw [none, if_pos rfl, if_pos rfl]
    rfl
  · rw [if_neg none, if_neg none, pageNumberOf_of_ne_zero none, Word.div?, if_neg none,
      Option.bind_some, Word.add?, UInt64.toNat_one]
    split <;> rfl

/-- The page number is the mathematical one as far as words go. -/
theorem exists_pageNumber? (m : Modifiers) (paged : m.paged) :
    ∃ page, m.pageNumber? = some page ∧ page.toNat =
      pageNumberOf (m.limitCount?.getD 0).toNat (m.offsetCount?.getD 0).toNat % UInt64.size :=
  ⟨_, if_pos paged, toNat_pageNumber _ _⟩

/-! ### Limit and offset of a page -/

/-- The page has its size for a limit, up to the largest count. -/
@[simp] theorem limitCount?_setPage (m : Modifiers) (number size : UInt64) :
    (m.setPage number size).limitCount? = some (.ofNat (min size.toNat maxCount)) :=
  Value.count?_ofCount_min size

/-- The page has the rows before it for an offset, up to the largest count. -/
@[simp] theorem offsetCount?_setPage (m : Modifiers) (number size : UInt64) :
    (m.setPage number size).offsetCount? =
      some (.ofNat (min (rowsBefore number size).toNat maxCount)) :=
  Value.count?_ofCount_min (rowsBefore number size)

theorem toNat_ofNat_min (n : Nat) : (UInt64.ofNat (min n maxCount)).toNat = min n maxCount :=
  UInt64.toNat_ofNat_of_lt' (Value.lt_size_of_le_maxCount (Nat.min_le_right n maxCount))

theorem toNat_limit_setPage {limit : UInt64}
    (h : (m.setPage number size).limitCount? = some limit) :
    limit.toNat = min size.toNat maxCount := by
  rw [limitCount?_setPage] at h
  rw [← Option.some.inj h, toNat_ofNat_min]

/-- As long as the rows before a page can be counted, the offset is their number. -/
theorem toNat_offset_setPage {offset : UInt64}
    (h : (m.setPage number size).offsetCount? = some offset)
    (fits : size.toNat * ((max number 1).toNat - 1) ≤ maxCount) :
    offset.toNat = size.toNat * ((max number 1).toNat - 1) := by
  have small := Value.lt_size_of_le_maxCount fits
  have before : (rowsBefore number size).toNat = size.toNat * ((max number 1).toNat - 1) := by
    rw [rowsBefore, Nat.min_eq_left (Nat.le_sub_one_of_lt small), UInt64.toNat_ofNat_of_lt' small]
  rw [offsetCount?_setPage, before, Nat.min_eq_left fits] at h
  rw [← Option.some.inj h, UInt64.toNat_ofNat_of_lt' small]

/-- A size too large to be kept leaves room for the first page alone. -/
theorem mul_div_min {s before : Nat} (positive : 1 ≤ s) (fits : s * before ≤ maxCount) :
    s * before / min s maxCount = before := by
  by_cases small : s ≤ maxCount
  · rw [Nat.min_eq_left small, Nat.mul_div_cancel_left before positive]
  · have first : before = 0 := by
      by_contra later
      have := Nat.le_mul_of_pos_right s (Nat.pos_of_ne_zero later)
      omega
    rw [first, Nat.mul_zero, Nat.zero_div]

theorem one_le_max (number : UInt64) : 1 ≤ (max number 1).toNat := by
  rw [Word.toNat_max]
  exact Nat.le_max_right _ _

/-- A page that can be counted has the number that was asked for, and page 0 is the first. -/
theorem pageNumber?_setPage (positive : 1 ≤ size.toNat)
    (fits : size.toNat * ((max number 1).toNat - 1) ≤ maxCount) :
    (m.setPage number size).pageNumber? = some (max number 1) := by
  have first := one_le_max number
  have limit := toNat_limit_setPage (limitCount?_setPage m number size)
  have offset := toNat_offset_setPage (offsetCount?_setPage m number size) fits
  obtain ⟨page, said, value⟩ := (m.setPage number size).exists_pageNumber?
    (paged_setPage m number size)
  have some_rows : min size.toNat maxCount ≠ 0 := by
    simp only [maxCount]
    omega
  rw [limitCount?_setPage, offsetCount?_setPage, Option.getD_some, Option.getD_some, limit, offset,
    pageNumberOf, if_neg some_rows, mul_div_min positive fits, Nat.sub_add_cancel first,
    Nat.mod_eq_of_lt (max number 1).toNat_lt] at value
  rw [said, UInt64.toNat_inj.mp value]

/-! ### No step fails -/

/-- No step on the way to a page fails. -/
theorem rowsBeforeStepwise?_eq (number size : UInt64) :
    rowsBeforeStepwise? number size = some (rowsBefore number size) := by
  have first : 1 ≤ max number 1 := UInt64.le_iff_toNat_le.mpr (one_le_max number)
  rw [rowsBeforeStepwise?, Word.sub?, if_pos first, Option.map_some, Word.mulUpTo, rowsBefore,
    UInt64.toNat_sub_of_le _ _ first]
  rfl

/-- No step on the way back to its number fails. -/
theorem pageNumberStepwise?_setPage (m : Modifiers) (number size : UInt64) :
    (m.setPage number size).pageNumberStepwise? = some (m.setPage number size).pageNumber? := by
  have small := Nat.min_le_right (rowsBefore number size).toNat maxCount
  rw [pageNumberStepwise?_eq _ (paged_setPage m number size), limitCount?_setPage,
    offsetCount?_setPage, Option.getD_some, Option.getD_some, toNat_ofNat_min, toNat_ofNat_min]
  refine if_pos ((pageNumberOf_lt_size_iff _ (Value.lt_size_of_le_maxCount small)).mpr ?_)
  -- a count that is kept lies below half of what a word can hold
  simp only [maxCount, UInt64.size] at *
  omega

/-- Limit and offset of a page are counts, whatever the filter had in their place. -/
theorem window_setPage (m : Modifiers) (number size : UInt64) :
    (m.setPage number size).window =
      .ok ((m.setPage number size).limitCount?, (m.setPage number size).offsetCount?) := by
  simp [window, countOf, Value.count?_ofCount_min, bind, Except.bind, pure, Except.pure]

/-! ### Pages side by side -/

/-- The pages from the first to this one, as their limits and offsets cut them. -/
structure PagesTile (m : Modifiers) (size count : UInt64) : Prop where
  covered : ∀ n, n < size.toNat * count.toNat ↔
    ∃ number, 1 ≤ number ∧ number ≤ count ∧ (m.setPage number size).Shows n
  disjoint : ∀ number number' n, number ≤ count → number' ≤ count → 1 ≤ number → 1 ≤ number' →
    (m.setPage number size).Shows n → (m.setPage number' size).Shows n → number = number'
  consecutive : ∀ number limit offset next, 1 ≤ number → number < count →
    (m.setPage number size).limitCount? = some limit →
    (m.setPage number size).offsetCount? = some offset →
    (m.setPage (number + 1) size).offsetCount? = some next →
    next.toNat = offset.toNat + limit.toNat
  rejoined : ∀ {β : Type} (rows : List β), rows.length ≤ size.toNat * count.toNat →
    (List.range count.toNat).flatMap (fun i => (m.setPage (.ofNat (i + 1)) size).cut rows) = rows

/-- A page that can be counted through to its end. -/
structure Counted (number size : UInt64) : Prop where
  first : 1 ≤ number.toNat
  fits : size.toNat * number.toNat ≤ maxCount

namespace Counted

theorem max_eq (h : Counted number size) : max number 1 = number := by
  rw [← UInt64.toNat_inj, Word.toNat_max]
  exact Nat.max_eq_left h.first

theorem size_le (h : Counted number size) : size.toNat ≤ maxCount :=
  Nat.le_trans (Nat.le_mul_of_pos_right _ h.first) h.fits

theorem before_le (h : Counted number size) : size.toNat * (number.toNat - 1) ≤ maxCount :=
  Nat.le_trans (Nat.mul_le_mul_left _ (Nat.sub_le _ _)) h.fits

theorem limit (h : Counted number size) {limit : UInt64}
    (held : (m.setPage number size).limitCount? = some limit) : limit.toNat = size.toNat := by
  rw [toNat_limit_setPage held, Nat.min_eq_left h.size_le]

theorem offset (h : Counted number size) {offset : UInt64}
    (held : (m.setPage number size).offsetCount? = some offset) :
    offset.toNat = size.toNat * (number.toNat - 1) := by
  have fits := h.before_le
  rw [← h.max_eq] at fits
  rw [toNat_offset_setPage held fits, h.max_eq]

theorem mul_sub_add (h : Counted number size) :
    size.toNat * (number.toNat - 1) + size.toNat = size.toNat * number.toNat := by
  rw [← Nat.mul_succ, Nat.succ_eq_add_one, Nat.sub_add_cancel h.first]

theorem shows_iff (h : Counted number size) {n : Nat} : (m.setPage number size).Shows n ↔
    size.toNat * (number.toNat - 1) ≤ n ∧ n < size.toNat * number.toNat := by
  rw [← h.mul_sub_add]
  constructor
  · rintro ⟨limit, offset, held, held', low, high⟩
    rw [h.limit held] at high
    rw [h.offset held'] at low high
    exact ⟨low, high⟩
  · rintro ⟨low, high⟩
    have limit := limitCount?_setPage m number size
    have offset := offsetCount?_setPage m number size
    refine ⟨_, _, limit, offset, ?_⟩
    rw [h.limit limit, h.offset offset]
    exact ⟨low, high⟩

/-- Cutting the rows by limit and offset gives the page. -/
theorem cut_eq (h : Counted number size) {β : Type} (rows : List β) :
    (m.setPage number size).cut rows =
      (rows.drop (size.toNat * (number.toNat - 1))).take size.toNat := by
  have offset := h.offset (offsetCount?_setPage m number size)
  have limit := h.limit (limitCount?_setPage m number size)
  rw [cut, limitCount?_setPage, offsetCount?_setPage, Option.getD_some, offset]
  dsimp only
  rw [limit]

theorem of_le {count : UInt64} (fits : size.toNat * count.toNat ≤ maxCount) (first : 1 ≤ number)
    (le : number ≤ count) : Counted number size :=
  ⟨UInt64.le_iff_toNat_le.mp first,
    Nat.le_trans (Nat.mul_le_mul_left _ (UInt64.le_iff_toNat_le.mp le)) fits⟩

end Counted

/-- Slices of one length, one after another. -/
theorem flatMap_slices {β : Type} (rows : List β) (s k : Nat) :
    (List.range k).flatMap (fun i => (rows.drop (s * i)).take s) = rows.take (s * k) := by
  induction k with
  | zero => simp
  | succ k ih =>
    rw [List.range_succ, List.flatMap_append, ih, Nat.mul_succ, List.take_add, List.flatMap_cons,
      List.flatMap_nil, List.append_nil]

/-- Pages of one size follow one another without a gap and without an overlap. -/
theorem pagesTile (m : Modifiers) {size count : UInt64}
    (fits : size.toNat * count.toNat ≤ maxCount) : m.PagesTile size count where
  covered n := by
    constructor
    · intro inside
      -- the page of a position is found by division
      have positive : 0 < size.toNat := Nat.pos_of_mul_pos_right (Nat.zero_lt_of_lt inside)
      have below : n / size.toNat < count.toNat := Nat.div_lt_of_lt_mul inside
      have word : (UInt64.ofNat (n / size.toNat + 1)).toNat = n / size.toNat + 1 :=
        UInt64.toNat_ofNat_of_lt' (Nat.lt_of_le_of_lt below count.toNat_lt)
      have first : 1 ≤ UInt64.ofNat (n / size.toNat + 1) := by
        rw [UInt64.le_iff_toNat_le, word]
        exact Nat.le_add_left 1 _
      have le : UInt64.ofNat (n / size.toNat + 1) ≤ count := by
        rw [UInt64.le_iff_toNat_le, word]
        exact below
      refine ⟨_, first, le, (Counted.of_le fits first le).shows_iff.mpr ?_⟩
      rw [word, Nat.add_sub_cancel]
      exact ⟨Nat.mul_div_le n size.toNat, Nat.lt_mul_div_succ n positive⟩
    · rintro ⟨number, first, le, shown⟩
      exact Nat.lt_of_lt_of_le ((Counted.of_le fits first le).shows_iff.mp shown).2
        (Nat.mul_le_mul_left _ (UInt64.le_iff_toNat_le.mp le))
  disjoint number number' n le le' first first' shown shown' := by
    obtain ⟨low, high⟩ := (Counted.of_le fits first le).shows_iff.mp shown
    obtain ⟨low', high'⟩ := (Counted.of_le fits first' le').shows_iff.mp shown'
    have apart {a b : Nat} (low : size.toNat * (b - 1) ≤ n) (high : n < size.toNat * a) :
        b ≤ a := by
      by_contra later
      have := Nat.mul_le_mul_left size.toNat (show a ≤ b - 1 by omega)
      omega
    exact UInt64.toNat_inj.mp (Nat.le_antisymm (apart low high') (apart low' high))
  consecutive number limit offset next first lt held held' heldNext := by
    have below := UInt64.lt_iff_toNat_lt.mp lt
    have sum : (number + 1).toNat = number.toNat + 1 := by
      rw [UInt64.toNat_add, UInt64.toNat_one]
      exact Nat.mod_eq_of_lt (Nat.lt_of_le_of_lt below count.toNat_lt)
    have here := Counted.of_le fits first (UInt64.le_of_lt lt)
    have there : Counted (number + 1) size :=
      ⟨by omega, Nat.le_trans (Nat.mul_le_mul_left _ (by omega)) fits⟩
    rw [there.offset heldNext, here.offset held', here.limit held, here.mul_sub_add, sum,
      Nat.add_sub_cancel]
  rejoined rows short := by
    have each : ∀ i ∈ List.range count.toNat, (m.setPage (.ofNat (i + 1)) size).cut rows =
        (rows.drop (size.toNat * i)).take size.toNat := by
      intro i mem
      have below := List.mem_range.mp mem
      have word : (UInt64.ofNat (i + 1)).toNat = i + 1 :=
        UInt64.toNat_ofNat_of_lt' (Nat.lt_of_le_of_lt below count.toNat_lt)
      have counted : Counted (.ofNat (i + 1)) size :=
        ⟨by omega, Nat.le_trans (Nat.mul_le_mul_left _ (by omega)) fits⟩
      rw [counted.cut_eq, word, Nat.add_sub_cancel]
    rw [List.flatMap_congr each, flatMap_slices, List.take_of_length_le short]

end Modifiers

/-! ### Pages from a finder -/

/-- A page size comes to lie between one and the largest size. -/
theorem QueryConfig.toNat_clampPageSize (config : QueryConfig) (size : UInt64) :
    (config.clampPageSize size).toNat =
      max 1 (min size.toNat (max 1 config.maxPageSize.toNat)) := by
  rw [clampPageSize, Word.toNat_min, Word.toNat_max, Word.toNat_max, UInt64.toNat_one]
  omega

namespace Finder

variable {α σ : Type} [Record α] [Store σ] (finder : Finder α)

theorem eq_of_ofRecords {records : List α} {prepared : Prepared} {target : Target}
    {connected : Bool} {r : ResultSet α}
    (h : ResultSet.ofRecords records prepared target connected = .ok r) :
    r.prepared = prepared ∧ r.target = target ∧ r.connected = connected := by
  obtain ⟨collection, -, h⟩ := Except.bind_eq_ok.mp h
  obtain rfl := Except.ok.inj h
  exact ⟨rfl, rfl, rfl⟩

/-- A result set keeps the filter that it was found by, and stays connected to the store. -/
theorem ensures_find_keeps (prepared : Prepared) :
    Work.Ensures (fun r => r.prepared.filter = prepared.filter ∧ r.target = finder.target ∧
      r.connected) (finder.find (σ := σ) prepared) := by
  have finished (rows : List Row) : Work.Ensures (fun r => r.prepared.filter = prepared.filter ∧
      r.target = finder.target ∧ r.connected)
      (Work.ofExcept ((finder.search prepared).finish rows) : Work σ _) := by
    refine .ofExcept fun r made => ?_
    obtain ⟨records, -, made⟩ := Except.bind_eq_ok.mp made
    obtain ⟨same, target, connected⟩ := eq_of_ofRecords made
    exact ⟨by rw [same, Prepared.filter_compile], target, connected⟩
  rw [find_eq, work]
  refine .after _ fun query => .after _ fun rows => ?_
  dsimp only
  split
  · exact .after _ fun _ => finished rows
  · exact finished rows

/-- A result keeps the page that it was found by. -/
theorem ensures_findPage_keeps (f : Filter) (number : UInt64) (size : Option UInt64) :
    Work.Ensures (fun r => r.prepared.filter = finder.pageOf f number size ∧
      r.target = finder.target ∧ r.connected) (finder.findPage (σ := σ) f number size) :=
  finder.ensures_find_keeps (finder.pageOf f number size).prepare

/-- A page is always a query. Its result says its number and its size, and its offset counts the
rows on the pages before, as long as these can be counted at all. Pages of one size tile the rows,
and no step on the way fails. -/
theorem pages_tile (f : Filter) :
    (∀ number size,
      let s := finder.config.clampPageSize (size.getD finder.config.pageSize)
      let page := finder.pageOf f number size
      s.toNat = max 1 (min (size.getD finder.config.pageSize).toNat
        (max 1 finder.config.maxPageSize.toNat)) ∧
      (finder.findPage f number size : Work σ _) = finder.find page.prepare ∧
      (∀ target, ∃ handed, (page.prepare.compile target).1 = .ok handed) ∧
      (s.toNat * ((max number 1).toNat - 1) ≤ maxCount →
        ∃ limit offset, page.modifiers.window = .ok (some limit, some offset) ∧
          limit.toNat = min s.toNat maxCount ∧
          offset.toNat = s.toNat * ((max number 1).toNat - 1) ∧
          ∀ (session : Session σ) r later,
            finder.findPage f number size session = (.ok r, later) →
            r.pageNumber? = some (max number 1) ∧ r.pageSize? = some limit ∧
            r.prepared.filter.modifiers.offsetCount? = some offset)) ∧
    (∀ size count : UInt64, size.toNat * count.toNat ≤ maxCount →
      f.modifiers.PagesTile size count) ∧
    ∀ number size, Modifiers.rowsBeforeStepwise? number size =
        some (Modifiers.rowsBefore number size) ∧
      (f.modifiers.setPage number size).pageNumberStepwise? =
        some (f.modifiers.setPage number size).pageNumber? := by
  refine ⟨fun number size => ?_, fun size count fits => f.modifiers.pagesTile fits,
    fun number size => ⟨Modifiers.rowsBeforeStepwise?_eq number size,
      f.modifiers.pageNumberStepwise?_setPage number size⟩⟩
  intro s page
  have clamped : s.toNat = _ := finder.config.toNat_clampPageSize _
  have window := Modifiers.window_setPage f.modifiers number s
  refine ⟨clamped, rfl, fun target => ?_, fun fits => ?_⟩
  · exact Prepared.exists_compile_eq_ok.mpr (Modifiers.exists_window.mp ⟨_, window⟩)
  · have limit := Modifiers.limitCount?_setPage f.modifiers number s
    have offset := Modifiers.offsetCount?_setPage f.modifiers number s
    rw [limit, offset] at window
    refine ⟨_, _, window, Modifiers.toNat_limit_setPage limit,
      Modifiers.toNat_offset_setPage offset fits, fun session r later found => ?_⟩
    obtain ⟨same, -⟩ := finder.ensures_findPage_keeps f number size session r later found
    have positive : 1 ≤ s.toNat := by omega
    refine ⟨?_, ?_, ?_⟩
    · rw [ResultSet.pageNumber?, same]
      exact Modifiers.pageNumber?_setPage positive fits
    · rw [ResultSet.pageSize?, same]
      exact limit
    · rw [same]
      exact offset

/-- The third page of a size that the configuration cuts down, of a filter with a limit that is
none. -/
theorem pages_tile_sample :
    let users := Finder.new "users" (Entity.ofRow "user" []) { maxPageSize := 5 }
    let f : Filter := { modifiers := { limit := some (.text "none") } }
    let s : Session Script := ⟨⟨[.ok [Row.ofCells [("id", .int 11)]]]⟩, [], {}⟩
    (∃ r later, users.findPage f 3 (some 9) s = (.ok r, later) ∧ r.pageNumber? = some 3 ∧
      ∃ limit offset, r.pageSize? = some limit ∧ limit.toNat = 5 ∧
        r.prepared.filter.modifiers.offsetCount? = some offset ∧ offset.toNat = 10) ∧
    f.modifiers.PagesTile 5 3 := by
  intro users f s
  obtain ⟨pages, tile, -⟩ := pages_tile (σ := Script) users f
  refine ⟨?_, tile 5 3 (by decide)⟩
  obtain ⟨-, -, -, page⟩ := pages 3 (some 9)
  obtain ⟨limit, offset, -, five, ten, result⟩ := page (by decide)
  have answered : (users.findPage f 3 (some 9) s).1.isOk := by decide +kernel
  cases found : users.findPage f 3 (some 9) s with
  | mk outcome later =>
    rw [found] at answered
    cases outcome with
    | error e => cases answered
    | ok r =>
      obtain ⟨number, size, before⟩ := result s r later found
      exact ⟨r, later, rfl, number, limit, offset, size, five, before, ten⟩

end Finder

end FilterQuery
