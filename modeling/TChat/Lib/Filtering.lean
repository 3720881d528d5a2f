import Mathlib
/-!
# Scanline filters

The filters of the PNG format.  A row of an image is written as the code of its filter and,
for each byte, the difference from what the filter predicts from the bytes to the left, above
and above to the left.
-/

namespace TChat.Lib

inductive FilterType
  | none
  | sub
  | up
  | average
  | paeth
  deriving DecidableEq, Repr

def FilterType.code : FilterType → UInt8
  | .none => 0
  | .sub => 1
  | .up => 2
  | .average => 3
  | .paeth => 4

/-- The one of the three bytes that is nearest to `left + up - upLeft`.  Ties go to `left`
first, and then to `up`. -/
def nearest (left up upLeft : UInt8) : UInt8 :=
  let estimate : ℤ := left.toNat + up.toNat - upLeft.toNat
  let distance (byte : UInt8) : ℤ := |estimate - byte.toNat|
  if distance left ≤ distance up ∧ distance left ≤ distance upLeft then left
  else if distance up ≤ distance upLeft then up
  else upLeft

/-- What a filter predicts from the bytes to the left, above and above to the left. -/
def FilterType.predict : FilterType → UInt8 → UInt8 → UInt8 → UInt8
  | .none, _, _, _ => 0
  | .sub, left, _, _ => left
  | .up, _, above, _ => above
  | .average, left, above, _ => UInt8.ofNat ((left.toNat + above.toNat) / 2)
  | .paeth, left, above, upLeft => nearest left above upLeft

/-- Byte `x` of row `y` of an image with rows of `stride` bytes.  Outside of the image the
bytes are 0. -/
def sample (stride : ℕ) (bytes : List UInt8) (y x : ℤ) : UInt8 :=
  if 0 ≤ y ∧ 0 ≤ x then bytes.getD (y.toNat * stride + x.toNat) 0 else 0

variable (stride bpp : ℕ) (bytes : List UInt8)

def filterByte (type : FilterType) (y x : ℕ) : UInt8 :=
  sample stride bytes y x -
    type.predict (sample stride bytes y (x - bpp)) (sample stride bytes (y - 1) x)
      (sample stride bytes (y - 1) (x - bpp))

def filterRow (type : FilterType) (y : ℕ) : List UInt8 :=
  type.code :: (List.range stride).map (filterByte stride bpp bytes type y)

def filterImage (filters : ℕ → FilterType) (height : ℕ) : List UInt8 :=
  (List.range height).flatMap fun y => filterRow stride bpp bytes (filters y) y

variable {stride bpp bytes} {filters : ℕ → FilterType} {type : FilterType} {height y x : ℕ}

theorem sample_natCast (y x : ℕ) :
    sample stride bytes y x = bytes.getD (y * stride + x) 0 := by
  rw [sample, if_pos ⟨Int.natCast_nonneg y, Int.natCast_nonneg x⟩, Int.toNat_natCast,
    Int.toNat_natCast]

theorem sample_outside {y x : ℤ} (h : y < 0 ∨ x < 0) : sample stride bytes y x = 0 :=
  if_neg (by omega)

theorem length_filterRow (type : FilterType) (y : ℕ) :
    (filterRow stride bpp bytes type y).length = 1 + stride := by
  rw [filterRow, List.length_cons, List.length_map, List.length_range, Nat.add_comm]

theorem index_lt {rows columns row column : ℕ} (hrow : row < rows) (hcolumn : column < columns) :
    row * columns + column < rows * columns := by
  rw [Nat.mul_comm row]
  exact Nat.mul_add_lt_mul_of_lt_of_lt hrow hcolumn

theorem index_inj {columns row row' column column' : ℕ} (hcolumn : column < columns)
    (hcolumn' : column' < columns) (h : row * columns + column = row' * columns + column') :
    row = row' ∧ column = column' := by
  have hsame : column = column' :=
    calc
      column = (row * columns + column) % columns := by
        rw [Nat.mul_add_mod', Nat.mod_eq_of_lt hcolumn]
      _ = column' := by rw [h, Nat.mul_add_mod', Nat.mod_eq_of_lt hcolumn']
  rw [hsame, Nat.add_right_cancel_iff] at h
  exact ⟨Nat.eq_of_mul_eq_mul_right (by omega) h, hsame⟩

theorem getElem?_flatMap_range {α : Type} {row : ℕ → List α} {width : ℕ}
    (hwidth : ∀ y, (row y).length = width) (hy : y < height) (hx : x < width) :
    ((List.range height).flatMap row)[y * width + x]? = (row y)[x]? := by
  have hlength (n : ℕ) : ((List.range n).flatMap row).length = n * width := by
    simp [List.length_flatMap, hwidth]
  induction height with
  | zero => exact absurd hy (Nat.not_lt_zero y)
  | succ n ih =>
      rw [List.range_succ, List.flatMap_append, List.flatMap_singleton]
      rcases Nat.lt_succ_iff_lt_or_eq.mp hy with hlt | rfl
      · have hbefore : y * width + x < n * width := index_lt hlt hx
        rw [List.getElem?_append_left (by rwa [hlength]), ih hlt]
      · rw [List.getElem?_append_right (by rw [hlength]; exact Nat.le_add_right _ _), hlength,
          Nat.add_sub_cancel_left]

theorem length_filterImage : (filterImage stride bpp bytes filters height).length =
    height * (1 + stride) := by
  simp [filterImage, List.length_flatMap, length_filterRow]

theorem filterImage_type (hy : y < height) :
    (filterImage stride bpp bytes filters height)[y * (1 + stride)]? =
      some (filters y).code := by
  have hrow (y : ℕ) : (filterRow stride bpp bytes (filters y) y).length = 1 + stride :=
    length_filterRow (filters y) y
  have htype := getElem?_flatMap_range hrow hy (Nat.add_pos_left Nat.one_pos stride)
  rwa [Nat.add_zero] at htype

theorem filterImage_byte (hy : y < height) (hx : x < stride) :
    (filterImage stride bpp bytes filters height)[y * (1 + stride) + (1 + x)]? =
      some (filterByte stride bpp bytes (filters y) y x) := by
  have hrow (y : ℕ) : (filterRow stride bpp bytes (filters y) y).length = 1 + stride :=
    length_filterRow (filters y) y
  rw [filterImage, getElem?_flatMap_range hrow hy (Nat.add_lt_add_left hx 1), filterRow,
    Nat.add_comm 1 x, List.getElem?_cons_succ, List.getElem?_map, List.getElem?_range hx,
    Option.map_some]

theorem filterByte_add_predict (type : FilterType) (y x : ℕ) :
    filterByte stride bpp bytes type y x +
        type.predict (sample stride bytes y (x - bpp)) (sample stride bytes (y - 1) x)
          (sample stride bytes (y - 1) (x - bpp)) =
      sample stride bytes y x :=
  UInt8.sub_add_cancel _ _

theorem sample_congr {bytes' : List UInt8} {y x : ℤ} {n : ℕ}
    (h : ∀ k < n, bytes[k]? = bytes'[k]?)
    (hbefore : 0 ≤ y → 0 ≤ x → y.toNat * stride + x.toNat < n) :
    sample stride bytes y x = sample stride bytes' y x := by
  by_cases hinside : 0 ≤ y ∧ 0 ≤ x
  · rw [sample, sample, if_pos hinside, if_pos hinside, List.getD_eq_getElem?_getD,
      List.getD_eq_getElem?_getD, h _ (hbefore hinside.1 hinside.2)]
  · rw [sample, sample, if_neg hinside, if_neg hinside]

theorem filterByte_congr {bytes' : List UInt8} (type : FilterType) {n : ℕ}
    (h : ∀ k < n, bytes[k]? = bytes'[k]?) (hbyte : y * stride + x < n) :
    filterByte stride bpp bytes type y x = filterByte stride bpp bytes' type y x := by
  have hbefore (row column : ℤ) (hrow : row ≤ y) (hcolumn : column ≤ x) :
      sample stride bytes row column = sample stride bytes' row column := by
    apply sample_congr h
    intro _ _
    have hrows : row.toNat * stride ≤ y * stride := Nat.mul_le_mul_right _ (by omega)
    omega
  rw [filterByte, filterByte, hbefore y x (by omega) (by omega),
    hbefore y (x - bpp) (by omega) (by omega), hbefore (y - 1) x (by omega) (by omega),
    hbefore (y - 1) (x - bpp) (by omega) (by omega)]

theorem eq_filterImage {data : List UInt8} (hlength : data.length = height * (1 + stride))
    (htypes : ∀ y < height, data[y * (1 + stride)]? = some (filters y).code)
    (hbytes : ∀ y < height, ∀ x < stride,
      data[y * (1 + stride) + (1 + x)]? = some (filterByte stride bpp bytes (filters y) y x)) :
    data = filterImage stride bpp bytes filters height := by
  apply List.ext_getElem?
  intro k
  by_cases hk : k < height * (1 + stride)
  · have hrow : k / (1 + stride) < height := Nat.div_lt_of_lt_mul (by rwa [Nat.mul_comm])
    have hcolumn : k % (1 + stride) < 1 + stride := Nat.mod_lt _ (by omega)
    rw [← Nat.div_add_mod' k (1 + stride)]
    generalize k / (1 + stride) = row at hrow ⊢
    generalize k % (1 + stride) = column at hcolumn ⊢
    cases column with
    | zero => rw [Nat.add_zero, htypes row hrow, filterImage_type hrow]
    | succ x =>
        rw [Nat.add_comm x 1, hbytes row hrow x (by omega), filterImage_byte hrow (by omega)]
  · rw [List.getElem?_eq_none (by omega), List.getElem?_eq_none (by rw [length_filterImage]; omega)]

theorem FilterType.code_injective : Function.Injective FilterType.code := by
  intro type type' h
  cases type <;> cases type' <;> first | rfl | exact absurd h (by decide)

theorem predict_congr {bytes' : List UInt8} (type : FilterType) (hbpp : 0 < bpp) (hx : x < stride)
    (h : ∀ k < y * stride + x, bytes[k]? = bytes'[k]?) :
    type.predict (sample stride bytes y (x - bpp)) (sample stride bytes (y - 1) x)
        (sample stride bytes (y - 1) (x - bpp)) =
      type.predict (sample stride bytes' y (x - bpp)) (sample stride bytes' (y - 1) x)
        (sample stride bytes' (y - 1) (x - bpp)) := by
  have hleft : sample stride bytes y (x - bpp) = sample stride bytes' y (x - bpp) := by
    apply sample_congr h
    intro _ _
    rw [Int.toNat_natCast]
    omega
  have habove (column : ℤ) (hcolumn : column ≤ x) :
      sample stride bytes (y - 1) column = sample stride bytes' (y - 1) column := by
    apply sample_congr h
    intro hrow _
    obtain ⟨previous, rfl⟩ : ∃ previous, y = previous + 1 := ⟨y - 1, by omega⟩
    have hprevious : ((previous + 1 : ℕ) - 1 : ℤ).toNat = previous := by omega
    rw [hprevious, Nat.succ_mul]
    omega
  rw [hleft, habove x (by omega), habove (x - bpp) (by omega)]

/-- After the same bytes, a filtered byte determines the next one. -/
theorem sample_eq_of_filterByte_eq {bytes' : List UInt8} (hbpp : 0 < bpp) (hx : x < stride)
    (h : ∀ k < y * stride + x, bytes[k]? = bytes'[k]?)
    (hbyte : filterByte stride bpp bytes type y x = filterByte stride bpp bytes' type y x) :
    sample stride bytes y x = sample stride bytes' y x := by
  rw [← @filterByte_add_predict stride bpp bytes type y x, hbyte, predict_congr type hbpp hx h,
    filterByte_add_predict]

/-- The filter takes away what the prediction has added. -/
theorem filterByte_set (raw : UInt8) (hbpp : 0 < bpp) (hx : x < stride)
    (hbyte : y * stride + x < bytes.length) :
    filterByte stride bpp
      (bytes.set (y * stride + x)
        (raw + type.predict (sample stride bytes y (x - bpp)) (sample stride bytes (y - 1) x)
          (sample stride bytes (y - 1) (x - bpp)))) type y x = raw := by
  rw [filterByte, predict_congr type hbpp hx fun k hk => List.getElem?_set_ne hk.ne',
    sample_natCast, List.getD_eq_getElem _ _ (by rwa [List.length_set]), List.getElem_set_self]
  exact UInt8.add_sub_cancel _ _

/-- The filtered rows determine the image. -/
theorem filterImage_inj {bytes' : List UInt8} {filters' : ℕ → FilterType} (hbpp : 0 < bpp)
    (hlength : bytes.length = height * stride) (hlength' : bytes'.length = height * stride)
    (h : filterImage stride bpp bytes filters height =
      filterImage stride bpp bytes' filters' height) : bytes = bytes' := by
  have hagree (k : ℕ) : k < height * stride → bytes[k]? = bytes'[k]? := by
    induction k using Nat.strong_induction_on with
    | h k ih =>
        intro hk
        have hrow : k / stride < height := Nat.div_lt_of_lt_mul (by rwa [Nat.mul_comm])
        have hcolumn : k % stride < stride :=
          Nat.mod_lt _ (Nat.pos_of_ne_zero fun hzero => by simp [hzero] at hk)
        have hindex := Nat.div_add_mod' k stride
        generalize k / stride = y at hrow hindex
        generalize k % stride = x at hcolumn hindex
        subst hindex
        have htype : filters y = filters' y := by
          apply FilterType.code_injective
          rw [← Option.some_inj, ← filterImage_type hrow, h, filterImage_type hrow]
        have hbyte : filterByte stride bpp bytes (filters y) y x =
            filterByte stride bpp bytes' (filters y) y x := by
          rw [← Option.some_inj, ← filterImage_byte hrow hcolumn, h,
            filterImage_byte hrow hcolumn, htype]
        have hsame := sample_eq_of_filterByte_eq hbpp hcolumn
          (fun j hj => ih j hj (hj.trans hk)) hbyte
        rw [sample_natCast, sample_natCast, List.getD_eq_getElem _ _ (by omega),
          List.getD_eq_getElem _ _ (by omega)] at hsame
        rw [List.getElem?_eq_getElem (by omega), List.getElem?_eq_getElem (by omega), hsame]
  apply List.ext_getElem?
  intro k
  by_cases hk : k < height * stride
  · exact hagree k hk
  · rw [List.getElem?_eq_none (by omega), List.getElem?_eq_none (by omega)]

end TChat.Lib
