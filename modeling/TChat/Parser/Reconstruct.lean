import TChat.Lib.Filtering
import TChat.Parser.PngLoader
/-!
# Reconstruction

`reconstructImage` takes back the filters of the PNG format: its predictor is the one of the
format, and from filtered rows it gets the bytes of the image back.
-/

namespace TChat.Parser

open TChat.Common TChat.Lib

def Image.rowBytes (image : Image) : ℕ := image.width.toNat * image.channels.toNat

/-! ## The predictor -/

/-- The second test of the code says no more than the one of the format, once the first has
failed. -/
theorem ties_eq {α : Type} (a b c : α) (pa pb pc : ℤ) :
    (if pa ≤ pb ∧ pa ≤ pc then a else if pb ≤ pa ∧ pb ≤ pc then b else c) =
      if pa ≤ pb ∧ pa ≤ pc then a else if pb ≤ pc then b else c := by
  by_cases hleft : pa ≤ pb ∧ pa ≤ pc
  · rw [if_pos hleft, if_pos hleft]
  · have hsame : (pb ≤ pa ∧ pb ≤ pc) ↔ pb ≤ pc := by omega
    simp only [hleft, hsame, if_false]

theorem paethPredictor_eq (left up upLeft : UInt8) :
    paethPredictor left up upLeft = nearest left up upLeft :=
  ties_eq _ _ _ _ _ _

theorem unfilter_code (type : FilterType) (raw left up upLeft : UInt8) :
    unfilter type.code raw left up upLeft = raw + type.predict left up upLeft := by
  cases type with
  | none => exact (UInt8.add_zero raw).symm
  | sub => rfl
  | up => rfl
  | average => rfl
  | paeth =>
      rw [FilterType.predict, ← paethPredictor_eq]
      rfl

/-! ## Numbers of 32 bits -/

section

variable {n : UInt32} {image : Image} {y c : ℕ}

theorem toInt_of_lt (h : n.toNat < 2 ^ 31) : toInt n = n.toNat := if_pos h

theorem ofInt_natCast (n : ℕ) : UInt32.ofInt n = UInt32.ofNat n := by
  rw [← UInt32.toNat_inj, UInt32.ofInt, UInt32.toNat_ofNat', UInt32.toNat_ofNat']
  omega

theorem stride_eq (hrow : image.rowBytes < 2 ^ 31) : image.stride = image.rowBytes := by
  unfold Image.rowBytes at hrow ⊢
  have hproduct : (image.width * image.channels).toNat =
      image.width.toNat * image.channels.toNat := by
    rw [UInt32.toNat_mul, Nat.mod_eq_of_lt (by omega)]
  rw [Image.stride, toInt_of_lt (by rwa [hproduct]), hproduct]

theorem toNat_pixelBytes (hsize : image.height.toNat * image.rowBytes < 2 ^ 32) :
    image.pixelBytes.toNat = image.height.toNat * image.rowBytes := by
  unfold Image.rowBytes at hsize ⊢
  have hproduct : image.width.toNat * image.height.toNat * image.channels.toNat =
      image.height.toNat * (image.width.toNat * image.channels.toNat) := by
    ring
  rw [Image.pixelBytes, UInt32.toNat_mul, UInt32.toNat_mul, Nat.mod_mul_mod, hproduct,
    Nat.mod_eq_of_lt hsize]

theorem pixelIndex_eq (hrow : image.rowBytes < 2 ^ 31) (hy : y < 2 ^ 32)
    (hindex : y * image.rowBytes + c < 2 ^ 32) :
    (UInt32.ofNat y * UInt32.ofInt image.stride + UInt32.ofNat c).toNat =
      y * image.rowBytes + c := by
  rw [stride_eq hrow, ofInt_natCast, UInt32.toNat_add, UInt32.toNat_mul, UInt32.toNat_ofNat',
    UInt32.toNat_ofNat', UInt32.toNat_ofNat', Nat.mod_eq_of_lt hy,
    Nat.mod_eq_of_lt (by omega : image.rowBytes < 2 ^ 32)]
  generalize y * image.rowBytes = start at hindex ⊢
  omega

/-! ## One byte -/

theorem at?_of_lt {bytes : Bytes} {index : ℕ} (h : index < bytes.length) :
    at? bytes index = some (bytes.getD index 0) := by
  rw [at?, if_pos (Int.natCast_nonneg _), Int.toNat_natCast, List.getElem?_eq_getElem h,
    List.getD_eq_getElem _ _ h]

section

variable {pixels : Bytes} (hrow : image.rowBytes < 2 ^ 31)
  (hindex : y * image.rowBytes + c < 2 ^ 31) (hy : y < 2 ^ 32) (hc : c < image.rowBytes)
  (hpixels : y * image.rowBytes + c < pixels.length)

include hc in
theorem channels_le : image.channels.toNat ≤ image.rowBytes := by
  apply Nat.le_mul_of_pos_left
  apply Nat.pos_of_ne_zero
  intro hwidth
  rw [Image.rowBytes, hwidth, Nat.zero_mul] at hc
  exact Nat.not_lt_zero c hc

include hrow hc in
theorem toInt_channels : toInt image.channels = image.channels.toNat :=
  toInt_of_lt (Nat.lt_of_le_of_lt (channels_le hc) hrow)

theorem toNat_sub_channels {index : ℕ} (hle : image.channels.toNat ≤ index)
    (hlt : index < 2 ^ 31) :
    (UInt32.ofInt (index : ℤ) - image.channels).toNat = index - image.channels.toNat := by
  have htoNat : (UInt32.ofNat index).toNat = index := by
    rw [UInt32.toNat_ofNat', Nat.mod_eq_of_lt (by omega)]
  have hle' : image.channels ≤ UInt32.ofNat index := by
    rwa [UInt32.le_iff_toNat_le, htoNat]
  rw [ofInt_natCast, UInt32.toNat_sub_of_le _ _ hle', htoNat]

theorem index_above (hfirst : 0 < y) :
    ((y * image.rowBytes + c : ℕ) : ℤ) - image.rowBytes = ((y - 1) * image.rowBytes + c : ℕ) ∧
      ((y : ℤ) - 1) = ((y - 1 : ℕ) : ℤ) ∧
      (y - 1) * image.rowBytes + c ≤ y * image.rowBytes + c := by
  obtain ⟨previous, rfl⟩ := Nat.exists_eq_succ_of_ne_zero hfirst.ne'
  have hproduct : (previous + 1) * image.rowBytes = previous * image.rowBytes + image.rowBytes :=
    Nat.succ_mul _ _
  rw [Nat.succ_eq_add_one, hproduct, Nat.add_sub_cancel]
  generalize previous * image.rowBytes = start
  omega

theorem ofNat_pos_iff (hy : y < 2 ^ 32) : 0 < UInt32.ofNat y ↔ 0 < y := by
  rw [UInt32.lt_iff_toNat_lt, UInt32.toNat_ofNat', Nat.mod_eq_of_lt hy]
  rfl

include hrow hindex hc hpixels in
theorem left?_eq : left? image pixels (y * image.rowBytes + c : ℕ) c =
    some (sample image.rowBytes pixels y (c - image.channels.toNat)) := by
  rw [left?, toInt_channels hrow hc]
  by_cases hcolumn : image.channels.toNat ≤ c
  · have hcast : ((c : ℤ) - image.channels.toNat) = ((c - image.channels.toNat : ℕ) : ℤ) := by
      omega
    rw [if_pos (by exact_mod_cast hcolumn), toNat_sub_channels (by omega) hindex,
      at?_of_lt (by omega), hcast, sample_natCast, Nat.add_sub_assoc hcolumn]
  · rw [if_neg (by exact_mod_cast hcolumn), sample_outside (by omega)]

include hrow hy hpixels in
theorem up?_eq : up? image pixels (y * image.rowBytes + c : ℕ) (UInt32.ofNat y) =
    some (sample image.rowBytes pixels (y - 1) c) := by
  rw [up?, stride_eq hrow, if_congr (ofNat_pos_iff hy) rfl rfl]
  by_cases hfirst : 0 < y
  · obtain ⟨habove, hprevious, hle⟩ := @index_above image y c hfirst
    rw [if_pos hfirst, habove, hprevious, at?_of_lt (Nat.lt_of_le_of_lt hle hpixels),
      sample_natCast]
  · rw [if_neg hfirst, sample_outside (by omega)]

include hrow hindex hy hc hpixels in
theorem upLeft?_eq : upLeft? image pixels (y * image.rowBytes + c : ℕ) (UInt32.ofNat y) c =
    some (sample image.rowBytes pixels (y - 1) (c - image.channels.toNat)) := by
  rw [upLeft?, stride_eq hrow, toInt_channels hrow hc,
    if_congr (and_congr_left' (ofNat_pos_iff hy)) rfl rfl]
  by_cases hinside : 0 < y ∧ image.channels.toNat ≤ c
  · obtain ⟨hfirst, hcolumn⟩ := hinside
    obtain ⟨habove, hprevious, hle⟩ := @index_above image y c hfirst
    have hcast : ((c : ℤ) - image.channels.toNat) = ((c - image.channels.toNat : ℕ) : ℤ) := by
      omega
    rw [if_pos ⟨hfirst, by exact_mod_cast hcolumn⟩, habove, hprevious, hcast,
      toNat_sub_channels (by omega) (Nat.lt_of_le_of_lt hle hindex), at?_of_lt (by omega),
      sample_natCast, Nat.add_sub_assoc hcolumn]
  · rw [if_neg (by exact_mod_cast hinside), sample_outside (by omega)]

end

variable {loop : Reconstruction} {raw filterType : UInt8}

/-- What the body of the inner loop does at column `c` of row `y`, for as long as indices fit
into an `int`. -/
theorem reconstructByte_eq (hrow : image.rowBytes < 2 ^ 31)
    (hindex : y * image.rowBytes + c < 2 ^ 31) (hy : y < 2 ^ 32) (hc : c < image.rowBytes)
    (hpixels : y * image.rowBytes + c < loop.pixels.length)
    (hraw : image.data[loop.rawIndex]? = some raw) :
    reconstructByte image filterType (UInt32.ofNat y) c loop =
      some ⟨loop.rawIndex + 1, loop.pixels.set (y * image.rowBytes + c)
        (unfilter filterType raw
          (sample image.rowBytes loop.pixels y (c - image.channels.toNat))
          (sample image.rowBytes loop.pixels (y - 1) c)
          (sample image.rowBytes loop.pixels (y - 1) (c - image.channels.toNat)))⟩ := by
  have hposition : toInt (UInt32.ofNat y * UInt32.ofInt image.stride + UInt32.ofNat c) =
      (y * image.rowBytes + c : ℕ) := by
    have htoNat := pixelIndex_eq hrow hy (hindex.trans (by decide))
    rw [toInt_of_lt (by rwa [htoNat]), htoNat]
  unfold reconstructByte
  simp only [hposition, hraw, left?_eq hrow hindex hc hpixels, up?_eq hrow hy hpixels,
    upLeft?_eq hrow hindex hy hc hpixels, bind, Option.bind_some]
  rw [if_pos ⟨Int.natCast_nonneg _, by exact_mod_cast hpixels⟩, Int.toNat_natCast]

/-! ## The loops -/

/-- The first `n` bytes of `pixels` are those of `P`, and `rawIndex` bytes have been read. -/
structure Rebuilt (P : Bytes) (n rawIndex : ℕ) (loop : Reconstruction) : Prop where
  rawIndex : loop.rawIndex = rawIndex
  length : loop.pixels.length = P.length
  agrees : ∀ k < n, loop.pixels[k]? = P[k]?

theorem Rebuilt.set {P : Bytes} {n rawIndex : ℕ} (h : Rebuilt P n rawIndex loop)
    (hn : n < P.length) :
    Rebuilt P (n + 1) (rawIndex + 1)
      ⟨loop.rawIndex + 1, loop.pixels.set n (P.getD n 0)⟩ := by
  constructor
  · rw [h.rawIndex]
  · rw [List.length_set, h.length]
  · intro k hk
    rcases Nat.lt_succ_iff_lt_or_eq.mp hk with hlt | rfl
    · rw [List.getElem?_set_ne hlt.ne', h.agrees k hlt]
    · rw [List.getElem?_set_self (by rwa [h.length]), List.getElem?_eq_getElem hn,
        List.getD_eq_getElem _ _ hn]

section

variable {P : Bytes} {filters : ℕ → FilterType} {height : ℕ}
  (hpixel : 0 < image.channels.toNat) (hrow : image.rowBytes < 2 ^ 31)
  (hsize : height * image.rowBytes ≤ 2 ^ 31) (hheight : height ≤ 2 ^ 32)
  (hP : P.length = height * image.rowBytes)
  (hdata : image.data = filterImage image.rowBytes image.channels.toNat P filters height)
  (hy : y < height)

include hpixel hrow hsize hheight hP hdata hy

theorem reconstructByte_filtered (hc : c < image.rowBytes)
    (h : Rebuilt P (y * image.rowBytes + c) (y * (1 + image.rowBytes) + (1 + c)) loop) :
    ∃ loop', reconstructByte image (filters y).code (UInt32.ofNat y) c loop = some loop' ∧
      Rebuilt P (y * image.rowBytes + (c + 1)) (y * (1 + image.rowBytes) + (1 + (c + 1)))
        loop' := by
  have hinside : y * image.rowBytes + c < height * image.rowBytes := index_lt hy hc
  have hraw : image.data[loop.rawIndex]? =
      some (filterByte image.rowBytes image.channels.toNat P (filters y) y c) := by
    rw [h.rawIndex, hdata, filterImage_byte hy hc]
  have hleft : sample image.rowBytes loop.pixels y (c - image.channels.toNat) =
      sample image.rowBytes P y (c - image.channels.toNat) := by
    apply sample_congr h.agrees
    intro _ hcolumn
    rw [Int.toNat_natCast]
    omega
  have habove (x : ℤ) (hx : x.toNat ≤ c) : sample image.rowBytes loop.pixels (y - 1) x =
      sample image.rowBytes P (y - 1) x := by
    apply sample_congr h.agrees
    intro hfirst _
    obtain ⟨previous, rfl⟩ : ∃ previous, y = previous + 1 := ⟨y - 1, by omega⟩
    have hprevious : ((previous + 1 : ℕ) - 1 : ℤ).toNat = previous := by omega
    rw [hprevious, Nat.succ_mul]
    omega
  have hvalue : unfilter (filters y).code
      (filterByte image.rowBytes image.channels.toNat P (filters y) y c)
      (sample image.rowBytes loop.pixels y (c - image.channels.toNat))
      (sample image.rowBytes loop.pixels (y - 1) c)
      (sample image.rowBytes loop.pixels (y - 1) (c - image.channels.toNat)) =
      P.getD (y * image.rowBytes + c) 0 := by
    rw [hleft, habove c (by omega), habove (c - image.channels.toNat) (by omega), unfilter_code,
      filterByte_add_predict, sample_natCast]
  have hpixels : y * image.rowBytes + c < loop.pixels.length := by
    rwa [h.length, hP]
  have hbyte : reconstructByte image (filters y).code (UInt32.ofNat y) c loop = _ :=
    reconstructByte_eq hrow (Nat.lt_of_lt_of_le hinside hsize) (Nat.lt_of_lt_of_le hy hheight) hc
      hpixels hraw
  rw [hvalue] at hbyte
  exact ⟨_, hbyte, h.set (by rwa [hP])⟩

theorem reconstructRow_filtered
    (h : Rebuilt P (y * image.rowBytes) (y * (1 + image.rowBytes)) loop) :
    ∃ loop', reconstructRow image y loop = some loop' ∧
      Rebuilt P ((y + 1) * image.rowBytes) ((y + 1) * (1 + image.rowBytes)) loop' := by
  have htype : image.data[loop.rawIndex]? = some (filters y).code := by
    rw [h.rawIndex, hdata, filterImage_type hy]
  have hstart : Rebuilt P (y * image.rowBytes + 0) (y * (1 + image.rowBytes) + (1 + 0))
      { loop with rawIndex := loop.rawIndex + 1 } :=
    ⟨by rw [h.rawIndex], h.length, h.agrees⟩
  obtain ⟨loop', hloop, hrebuilt⟩ := forRange_invariant
    (fun c loop => Rebuilt P (y * image.rowBytes + c) (y * (1 + image.rowBytes) + (1 + c)) loop)
    hstart fun c loop hc hloop =>
      reconstructByte_filtered hpixel hrow hsize hheight hP hdata hy hc hloop
  refine ⟨loop', ?_, ?_⟩
  · unfold reconstructRow
    rw [htype, stride_eq hrow, Int.toNat_natCast]
    exact hloop
  · rwa [Nat.succ_mul, Nat.succ_mul]

end

theorem length_resize (bytes : Bytes) (size : ℕ) : (resize bytes size).length = size := by
  rw [resize, List.length_append, List.length_take, List.length_replicate]
  omega

/-- `reconstructImage` reads filtered rows to their end and gets the bytes of the image back,
whatever `pixels` has held. -/
theorem reconstructImage_filtered {P : Bytes} {filters : ℕ → FilterType}
    (hchannels : image.channels = 3 ∨ image.channels = 4)
    (hsize : (1 + image.width.toNat * image.channels.toNat) * image.height.toNat < 2 ^ 31)
    (hP : P.length = image.width.toNat * image.height.toNat * image.channels.toNat)
    (hdata : image.data =
      filterImage (image.width.toNat * image.channels.toNat) image.channels.toNat P filters
        image.height.toNat) :
    reconstructImage image = some (image.data.length, { image with pixels := P }) := by
  have hpixel : 0 < image.channels.toNat := by
    rcases hchannels with h | h <;> rw [h] <;> decide
  have hproduct : (1 + image.rowBytes) * image.height.toNat =
      image.height.toNat + image.height.toNat * image.rowBytes := by
    ring
  have hlength : P.length = image.height.toNat * image.rowBytes := by
    rw [hP, Image.rowBytes]
    ring
  have hbytes : image.height.toNat * image.rowBytes < 2 ^ 31 := by
    unfold Image.rowBytes at hproduct ⊢
    omega
  have hrow (y : ℕ) (hy : y < image.height.toNat) : image.rowBytes < 2 ^ 31 :=
    Nat.lt_of_le_of_lt (Nat.le_mul_of_pos_left _ (by omega)) hbytes
  have hstart : Rebuilt P (0 * image.rowBytes) (0 * (1 + image.rowBytes))
      ⟨0, resize image.pixels image.pixelBytes.toNat⟩ := by
    refine ⟨(Nat.zero_mul _).symm, ?_, fun k hk => ?_⟩
    · rw [length_resize, toNat_pixelBytes (by omega), hlength]
    · rw [Nat.zero_mul] at hk
      exact absurd hk (Nat.not_lt_zero k)
  obtain ⟨loop, hloop, hrebuilt⟩ := forRange_invariant
    (fun y loop => Rebuilt P (y * image.rowBytes) (y * (1 + image.rowBytes)) loop)
    hstart fun y loop hy h =>
      reconstructRow_filtered hpixel (hrow y hy) hbytes.le image.height.toNat_lt.le hlength hdata
        hy h
  have hread : loop.rawIndex = image.data.length := by
    rw [hrebuilt.rawIndex, hdata, length_filterImage]
    rfl
  have hpixels : loop.pixels = P := by
    apply List.ext_getElem?
    intro k
    by_cases hk : k < image.height.toNat * image.rowBytes
    · exact hrebuilt.agrees k hk
    · rw [List.getElem?_eq_none (by rw [hrebuilt.length, hlength]; omega),
        List.getElem?_eq_none (by rw [hlength]; omega)]
  unfold reconstructImage
  simp only [hloop, bind, Option.bind_some, hread, hpixels]

/-- `reconstructImage_filtered` for two rows of two pixels, filtered by Average and Paeth. -/
theorem reconstructImage_filtered_square :
    reconstructImage ⟨2, 2, 3, [3, 1, 2, 3, 40, 49, 59, 4, 6, 6, 6, 210, 150, 90], [], []⟩ =
      some (14, ⟨2, 2, 3, [3, 1, 2, 3, 40, 49, 59, 4, 6, 6, 6, 210, 150, 90], [],
        [1, 2, 3, 40, 50, 60, 7, 8, 9, 250, 200, 150]⟩) :=
  @reconstructImage_filtered _ _ (fun y => if y = 0 then .average else .paeth) (Or.inl rfl)
    (by decide) rfl (by decide)

end

end TChat.Parser
