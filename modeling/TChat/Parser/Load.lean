import TChat.Parser.Chunks
import TChat.Parser.Reconstruct
/-!
# Loading a file

`Load` goes on with the reconstruction whatever `processChunks` returns, and then returns
`true`.  That is right only for files whose chunks make an image and decompress to all of it.
-/

namespace TChat.Parser

open TChat.Common TChat.Lib

/-- No vector is read or written out of range, no size wraps, and the result is `true` only
if the chunks and the decompression were in order and gave all the rows. -/
structure Loading.Safe (loading : Loading) : Prop where
  inRange : loading.outcome ≠ .outOfRange
  exact : Exact loading.sizes
  verdict : loading.outcome = .returned true → ∃ processed, loading.processed = some processed ∧
    processed.verdict = some true ∧
    processed.destLen = some (loading.image.height.toNat * (1 + loading.image.rowBytes))

/-- The files that are loaded safely: those that are not taken for PNG files, and those with a
walk over their chunks that collects data for an image of a size that can be computed, of which
all the rows come out of the decompression and fit into an `int`, or for which there is no
memory. -/
inductive Loadable (env : Environment) (image : Image) : Option Bytes → Prop
  | unopened : Loadable env image none
  | unsigned {contents : Bytes} :
      ¬pngSignature <+: contents → Loadable env image (some contents)
  | unallocated {rest : Bytes} {file : Stream} {walked : Image} :
      Walk env rest image file walked → walked.zlibStream ≠ [] → 1 + walked.rowBytes < 2 ^ 32 →
      env.allocates (walked.height.toNat * (1 + walked.rowBytes)) = false →
      Loadable env image (some (pngSignature ++ rest))
  | complete {rest written : Bytes} {file : Stream} {walked : Image} :
      Walk env rest image file walked → walked.zlibStream ≠ [] → walked.rowBytes < 2 ^ 31 →
      walked.height.toNat * walked.rowBytes ≤ 2 ^ 31 →
      env.allocates (walked.height.toNat * (1 + walked.rowBytes)) = true →
      env.uncompress walked.zlibStream (walked.height.toNat * (1 + walked.rowBytes)) =
        (zOk, written) →
      written.length = walked.height.toNat * (1 + walked.rowBytes) →
      Loadable env image (some (pngSignature ++ rest))

def Image.decompressed (image : Image) (written : Bytes) : Image :=
  { image with
    data := written ++ (resize image.data image.expectedStreamSize.toNat).drop written.length }

section

variable {env : Environment} {image image' walked : Image} {file : Stream} {rest : Bytes}
  {loop loop' : Reconstruction} {contents : Option Bytes} {written : Bytes}
  {filterType : UInt8} {y c : ℕ}

/-! ## Sizes -/

theorem bytesPerScanline_exact_iff :
    image.bytesPerScanline.toNat = 1 + image.rowBytes ↔ 1 + image.rowBytes < 2 ^ 32 := by
  have hbytes : image.bytesPerScanline.toNat = (1 + image.rowBytes % 2 ^ 32) % 2 ^ 32 := by
    rw [Image.bytesPerScanline, UInt32.toNat_add, UInt32.toNat_mul]
    rfl
  rw [hbytes]
  omega

theorem toNat_expectedStreamSize (h : 1 + image.rowBytes < 2 ^ 32) :
    image.expectedStreamSize.toNat = image.height.toNat * (1 + image.rowBytes) := by
  have hheight := image.height.toNat_lt
  have hlt : image.height.toNat * (1 + image.rowBytes) < 2 ^ 64 :=
    calc
      image.height.toNat * (1 + image.rowBytes) ≤ 2 ^ 32 * (1 + image.rowBytes) :=
        Nat.mul_le_mul_right _ hheight.le
      _ < 2 ^ 64 := by omega
  rw [Image.expectedStreamSize, UInt64.toNat_mul, UInt32.toNat_toUInt64, UInt32.toNat_toUInt64,
    bytesPerScanline_exact_iff.mpr h, Nat.mod_eq_of_lt hlt]

theorem toInt_lt (n : UInt32) : toInt n < 2 ^ 31 := by
  have hn := n.toNat_lt
  unfold toInt
  split_ifs <;> omega

theorem stride_exact_iff : image.stride = image.rowBytes ↔ image.rowBytes < 2 ^ 31 := by
  constructor
  · intro h
    have hlt := toInt_lt (image.width * image.channels)
    rw [← Image.stride, h] at hlt
    exact_mod_cast hlt
  · exact stride_eq

theorem pixelSizes_decompressed : (image.decompressed written).pixelSizes = image.pixelSizes := rfl

theorem pixelBytes_exact_iff :
    image.pixelBytes.toNat = image.width.toNat * image.height.toNat * image.channels.toNat ↔
      image.height.toNat * image.rowBytes < 2 ^ 32 := by
  have hproduct : image.width.toNat * image.height.toNat * image.channels.toNat =
      image.height.toNat * image.rowBytes := by
    rw [Image.rowBytes]
    ring
  rw [hproduct]
  constructor
  · intro h
    rw [← h]
    exact image.pixelBytes.toNat_lt
  · exact toNat_pixelBytes

/-! ## Indices -/

/-- How far the loops are: `rawIndex` bytes have been read, and `pixels` has its size. -/
structure Within (image : Image) (rawIndex : ℕ) (loop : Reconstruction) : Prop where
  rawIndex : loop.rawIndex = rawIndex
  length : loop.pixels.length = image.height.toNat * image.rowBytes

section

variable (hrow : image.rowBytes < 2 ^ 31)
  (hsize : image.height.toNat * image.rowBytes ≤ 2 ^ 31)
  (hdata : image.data.length = image.height.toNat * (1 + image.rowBytes))
  (hy : y < image.height.toNat)

include hrow hsize hdata hy

theorem reconstructByte_within (filterType : UInt8) (hc : c < image.rowBytes)
    (h : Within image (y * (1 + image.rowBytes) + (1 + c)) loop) :
    ∃ loop', reconstructByte image filterType (UInt32.ofNat y) c loop = some loop' ∧
      Within image (y * (1 + image.rowBytes) + (1 + (c + 1))) loop' := by
  have hpixel : y * image.rowBytes + c < image.height.toNat * image.rowBytes := index_lt hy hc
  have hread : loop.rawIndex < image.data.length := by
    rw [h.rawIndex, hdata]
    exact index_lt hy (Nat.add_lt_add_left hc 1)
  have hpixels : y * image.rowBytes + c < loop.pixels.length := by
    rwa [h.length]
  refine ⟨_, reconstructByte_eq hrow (Nat.lt_of_lt_of_le hpixel hsize)
    (hy.trans image.height.toNat_lt) hc hpixels (List.getElem?_eq_getElem hread), ?_, ?_⟩
  · have hindex := h.rawIndex
    dsimp only
    omega
  · rw [List.length_set, h.length]

theorem reconstructRow_within (h : Within image (y * (1 + image.rowBytes)) loop) :
    ∃ loop', reconstructRow image y loop = some loop' ∧
      Within image ((y + 1) * (1 + image.rowBytes)) loop' := by
  have hread : loop.rawIndex < image.data.length := by
    rw [h.rawIndex, hdata]
    exact index_lt hy (Nat.add_pos_left Nat.one_pos _)
  have hstart : Within image (y * (1 + image.rowBytes) + (1 + 0))
      { loop with rawIndex := loop.rawIndex + 1 } :=
    ⟨by rw [h.rawIndex], h.length⟩
  obtain ⟨loop', hloop, hwithin⟩ := forRange_invariant
    (fun c loop => Within image (y * (1 + image.rowBytes) + (1 + c)) loop) hstart
    fun c inner hc hinner =>
      reconstructByte_within hrow hsize hdata hy image.data[loop.rawIndex] hc hinner
  refine ⟨loop', ?_, ?_⟩
  · unfold reconstructRow
    rw [List.getElem?_eq_getElem hread, stride_eq hrow, Int.toNat_natCast]
    exact hloop
  · rwa [Nat.succ_mul]

omit hy in
/-- The loops keep within their vectors as long as every index fits into an `int`. -/
theorem exists_reconstructImage :
    ∃ read pixels, reconstructImage image = some (read, { image with pixels := pixels }) := by
  have hstart : Within image (0 * (1 + image.rowBytes))
      ⟨0, resize image.pixels image.pixelBytes.toNat⟩ := by
    refine ⟨(Nat.zero_mul _).symm, ?_⟩
    rw [length_resize, toNat_pixelBytes (by omega)]
  obtain ⟨loop, hloop, -⟩ := forRange_invariant
    (fun y loop => Within image (y * (1 + image.rowBytes)) loop) hstart
    fun y loop hy h => reconstructRow_within hrow hsize hdata hy h
  refine ⟨loop.rawIndex, loop.pixels, ?_⟩
  unfold reconstructImage
  simp only [hloop, bind, Option.bind_some]

end

theorem pixelIndex_nonneg
    (h : reconstructByte image filterType (UInt32.ofNat y) c loop = some loop') :
    0 ≤ toInt (UInt32.ofNat y * UInt32.ofInt image.stride + UInt32.ofNat c) := by
  simp only [reconstructByte, bind, Option.bind_eq_some_iff] at h
  obtain ⟨raw, -, left, -, up, -, upLeft, -, h⟩ := h
  split_ifs at h with hindex
  exact hindex.1

/-- The loops do not end if they come to the index `2 ^ 31`. -/
theorem size_le_of_reconstructImage {result : ℕ × Image} (hrow : image.rowBytes < 2 ^ 31)
    (h : reconstructImage image = some result) :
    image.height.toNat * image.rowBytes ≤ 2 ^ 31 := by
  by_contra hsize
  rw [Nat.not_le] at hsize
  have hpositive : 0 < image.rowBytes := by
    apply Nat.pos_of_ne_zero
    intro hzero
    rw [hzero, Nat.mul_zero] at hsize
    exact Nat.not_lt_zero _ hsize
  have hy : 2 ^ 31 / image.rowBytes < image.height.toNat :=
    Nat.div_lt_of_lt_mul (by rwa [Nat.mul_comm])
  have hc : 2 ^ 31 % image.rowBytes < image.stride.toNat := by
    rw [stride_eq hrow, Int.toNat_natCast]
    exact Nat.mod_lt _ hpositive
  obtain ⟨loop, hloop, -⟩ := Option.bind_eq_some_iff.mp h
  obtain ⟨before, after, hbody⟩ := forRange_round hloop hy
  obtain ⟨filterType, -, hcolumns⟩ := Option.bind_eq_some_iff.mp hbody
  obtain ⟨before, after, hbyte⟩ := forRange_round hcolumns hc
  have hnonneg := pixelIndex_nonneg hbyte
  have hindex : 2 ^ 31 / image.rowBytes * image.rowBytes + 2 ^ 31 % image.rowBytes = 2 ^ 31 :=
    Nat.div_add_mod' _ _
  have hposition := pixelIndex_eq (c := 2 ^ 31 % image.rowBytes) hrow
    (hy.trans image.height.toNat_lt) (by rw [hindex]; decide)
  rw [hindex] at hposition
  rw [toInt, hposition, if_neg (Nat.lt_irrefl _)] at hnonneg
  exact absurd hnonneg (by decide)

theorem reconstructImage_pixels {read : ℕ} (h : reconstructImage image = some (read, image')) :
    ∃ pixels, image' = { image with pixels := pixels } := by
  obtain ⟨loop, -, hresult⟩ := Option.bind_eq_some_iff.mp h
  exact ⟨loop.pixels, (Prod.mk.inj (Option.some.inj hresult)).2.symm⟩

/-! ## The whole -/

theorem validateSignature_append (rest : Bytes) :
    validateSignature (some (pngSignature ++ rest)) = (true, some rest) := by
  have hread := read_append pngSignature rest
  have hlength : pngSignature.length = 8 := rfl
  rw [hlength] at hread
  rw [validateSignature, hread]
  rfl

theorem validateSignature_unsigned {contents : Bytes} (h : ¬pngSignature <+: contents) :
    (validateSignature (some contents)).1 = false := by
  unfold validateSignature Stream.read
  dsimp only
  rw [decide_eq_false_iff_not]
  intro htake
  apply h
  rw [← htake.2]
  exact List.take_prefix 8 contents

theorem load_unsigned {contents : Bytes} (h : ¬pngSignature <+: contents) :
    load env (some contents) image = ⟨.returned false, image, none, []⟩ := by
  unfold load
  dsimp only
  rw [if_pos (validateSignature_unsigned h)]

theorem load_thrown (h : (processChunks env (some rest) image).verdict = none) :
    load env (some (pngSignature ++ rest)) image =
      ⟨.thrown, (processChunks env (some rest) image).image,
        some (processChunks env (some rest) image),
        (processChunks env (some rest) image).sizes⟩ := by
  unfold load
  dsimp only
  rw [validateSignature_append]
  dsimp only
  rw [if_neg (by decide), if_pos h]

theorem load_outOfRange (h : (processChunks env (some rest) image).verdict ≠ none)
    (hloops : reconstructImage (processChunks env (some rest) image).image = none) :
    (load env (some (pngSignature ++ rest)) image).outcome = .outOfRange := by
  unfold load
  dsimp only
  rw [validateSignature_append]
  dsimp only
  rw [if_neg (by decide), if_neg h, hloops]

theorem load_returned {read : ℕ} (h : (processChunks env (some rest) image).verdict ≠ none)
    (hloops : reconstructImage (processChunks env (some rest) image).image = some (read, image')) :
    load env (some (pngSignature ++ rest)) image =
      ⟨.returned true, image', some (processChunks env (some rest) image),
        (processChunks env (some rest) image).sizes ++
          (processChunks env (some rest) image).image.pixelSizes⟩ := by
  unfold load
  dsimp only
  rw [validateSignature_append]
  dsimp only
  rw [if_neg (by decide), if_neg h, hloops]

theorem not_safe_of_false (h : (processChunks env (some rest) image).verdict = some false) :
    ¬(load env (some (pngSignature ++ rest)) image).Safe := by
  intro hsafe
  have hreturns : (processChunks env (some rest) image).verdict ≠ none := by
    rw [h]
    exact Option.some_ne_none _
  cases hloops : reconstructImage (processChunks env (some rest) image).image with
  | none => exact hsafe.inRange (load_outOfRange hreturns hloops)
  | some result =>
      obtain ⟨read, image'⟩ := result
      have hload := load_returned hreturns hloops
      obtain ⟨processed, hprocessed, hverdict, -⟩ := hsafe.verdict (by rw [hload])
      rw [hload, Option.some.injEq] at hprocessed
      rw [← hprocessed, h] at hverdict
      cases hverdict

theorem destLen_of_safe {processed : Processed} {sizes : List Size}
    (hsafe : (load env contents image).Safe)
    (hload : load env contents image = ⟨.returned true, image', some processed, sizes⟩) :
    processed.destLen = some (image'.height.toNat * (1 + image'.rowBytes)) := by
  obtain ⟨processed', hprocessed, -, hlength⟩ := hsafe.verdict (by rw [hload])
  rw [hload] at hprocessed hlength
  rw [Option.some.inj hprocessed]
  exact hlength

theorem exact_pair {first second : Size} : Exact [first, second] ↔
    first.computed = first.exact ∧ second.computed = second.exact := by
  simp [Exact]

theorem exact_streamSizes_iff : Exact image.streamSizes ↔ 1 + image.rowBytes < 2 ^ 32 := by
  rw [Image.streamSizes, exact_pair, ← bytesPerScanline_exact_iff, Image.rowBytes]
  dsimp only
  constructor
  · intro h
    exact_mod_cast h.1
  · intro h
    have hstream := toNat_expectedStreamSize (bytesPerScanline_exact_iff.mp h)
    rw [Image.rowBytes] at hstream
    exact ⟨by exact_mod_cast h, by exact_mod_cast hstream⟩

theorem exact_pixelSizes_iff : Exact image.pixelSizes ↔
    image.height.toNat * image.rowBytes < 2 ^ 32 ∧ image.rowBytes < 2 ^ 31 := by
  rw [Image.pixelSizes, exact_pair, ← pixelBytes_exact_iff, ← stride_exact_iff, Image.rowBytes]
  dsimp only
  norm_cast

/-! ## The decompression -/

theorem processChunks_rejected {sizes : List Size}
    (hwalk : walkChunks env (some rest) image = (.rejected file walked, sizes)) :
    (processChunks env (some rest) image).verdict = some false := by
  unfold processChunks
  rw [hwalk]

section

variable {sizes : List Size}
  (hwalk : walkChunks env (some rest) image = (.ended file walked, sizes))

include hwalk

theorem processChunks_empty (hstream : walked.zlibStream = []) :
    (processChunks env (some rest) image).verdict = some false := by
  unfold processChunks
  rw [hwalk]
  dsimp only
  rw [if_pos hstream]

theorem processChunks_unallocated (hstream : walked.zlibStream ≠ [])
    (hmemory : env.allocates walked.expectedStreamSize.toNat = false) :
    processChunks env (some rest) image =
      ⟨none, file, walked, none, sizes ++ walked.streamSizes⟩ := by
  unfold processChunks
  rw [hwalk]
  dsimp only
  rw [if_neg hstream, if_pos hmemory]

theorem processChunks_decompressed {result : ℤ} {written : Bytes}
    (hstream : walked.zlibStream ≠ [])
    (hmemory : env.allocates walked.expectedStreamSize.toNat = true)
    (hdecompressed :
      env.uncompress walked.zlibStream walked.expectedStreamSize.toNat = (result, written)) :
    processChunks env (some rest) image =
      ⟨some (decide (result = zOk)), file, walked.decompressed written, some written.length,
        sizes ++ walked.streamSizes⟩ := by
  unfold processChunks
  rw [hwalk]
  dsimp only
  rw [if_neg hstream, if_neg (by rw [hmemory]; decide)]
  simp only [hdecompressed]
  rfl

end

/-! ## The condition -/

/-- A PNG file that is loaded safely has accepted chunks, and its data fills the rows. -/
theorem loadable_of_safe (h : (load env (some (pngSignature ++ rest)) image).Safe) :
    Loadable env image (some (pngSignature ++ rest)) := by
  rcases hwalk : walkChunks env (some rest) image with ⟨⟨file, walked⟩ | ⟨file, walked⟩, sizes⟩
  case rejected => exact (not_safe_of_false (processChunks_rejected hwalk) h).elim
  by_cases hstream : walked.zlibStream = []
  · exact (not_safe_of_false (processChunks_empty hwalk hstream) h).elim
  cases hmemory : env.allocates walked.expectedStreamSize.toNat with
  | false =>
      have hprocessed := processChunks_unallocated hwalk hstream hmemory
      have hexact := h.exact
      rw [load_thrown (by rw [hprocessed]), hprocessed, exact_append,
        exact_streamSizes_iff] at hexact
      rw [toNat_expectedStreamSize hexact.2] at hmemory
      exact .unallocated (walkFrom_of_walkChunks hwalk hexact.1) hstream hexact.2 hmemory
  | true =>
      rcases hdecompressed :
        env.uncompress walked.zlibStream walked.expectedStreamSize.toNat with ⟨result, written⟩
      have hprocessed := processChunks_decompressed hwalk hstream hmemory hdecompressed
      by_cases hresult : result = zOk
      · subst hresult
        have hreturns : (processChunks env (some rest) image).verdict ≠ none := by
          rw [hprocessed]
          exact Option.some_ne_none _
        cases hloops : reconstructImage (processChunks env (some rest) image).image with
        | none => exact (h.inRange (load_outOfRange hreturns hloops)).elim
        | some loops =>
            obtain ⟨read, image'⟩ := loops
            have hload := load_returned hreturns hloops
            rw [hprocessed] at hloops
            have hexact := h.exact
            rw [hload, hprocessed, exact_append, exact_append, exact_streamSizes_iff,
              pixelSizes_decompressed, exact_pixelSizes_iff] at hexact
            obtain ⟨⟨hsizes, hlarge⟩, -, hrow⟩ := hexact
            have hsize := @size_le_of_reconstructImage (walked.decompressed written) _ hrow hloops
            have hlength := destLen_of_safe h hload
            obtain ⟨pixels, rfl⟩ := reconstructImage_pixels hloops
            rw [hprocessed] at hlength
            rw [toNat_expectedStreamSize hlarge] at hmemory hdecompressed
            exact .complete (walkFrom_of_walkChunks hwalk hsizes) hstream hrow hsize hmemory
              hdecompressed (Option.some.inj hlength)
      · refine (not_safe_of_false ?_ h).elim
        rw [hprocessed, decide_eq_false hresult]

theorem safe_of_false (hload : load env contents image = ⟨.returned false, image', none, []⟩) :
    (load env contents image).Safe := by
  rw [hload]
  exact ⟨Outcome.noConfusion, by simp [Exact], fun h => by cases h⟩

/-- No memory: `Load` throws before it touches the pixels. -/
theorem safe_of_unallocated (hwalk : Walk env rest image file walked)
    (hstream : walked.zlibStream ≠ []) (hlarge : 1 + walked.rowBytes < 2 ^ 32)
    (hmemory : env.allocates (walked.height.toNat * (1 + walked.rowBytes)) = false) :
    (load env (some (pngSignature ++ rest)) image).Safe := by
  obtain ⟨sizes, hexact, hended⟩ := walkChunks_of_walk hwalk
  rw [← toNat_expectedStreamSize hlarge] at hmemory
  have hprocessed := processChunks_unallocated hended hstream hmemory
  rw [load_thrown (by rw [hprocessed]), hprocessed]
  exact ⟨Outcome.noConfusion, exact_append.mpr ⟨hexact, exact_streamSizes_iff.mpr hlarge⟩,
    fun h => by cases h⟩

theorem safe_of_complete (hwalk : Walk env rest image file walked)
    (hstream : walked.zlibStream ≠ []) (hrow : walked.rowBytes < 2 ^ 31)
    (hsize : walked.height.toNat * walked.rowBytes ≤ 2 ^ 31)
    (hmemory : env.allocates (walked.height.toNat * (1 + walked.rowBytes)) = true)
    (hdecompressed : env.uncompress walked.zlibStream
      (walked.height.toNat * (1 + walked.rowBytes)) = (zOk, written))
    (hlength : written.length = walked.height.toNat * (1 + walked.rowBytes)) :
    (load env (some (pngSignature ++ rest)) image).Safe := by
  have hlarge : 1 + walked.rowBytes < 2 ^ 32 := by omega
  obtain ⟨sizes, hexact, hended⟩ := walkChunks_of_walk hwalk
  rw [← toNat_expectedStreamSize hlarge] at hmemory hdecompressed
  have hprocessed := processChunks_decompressed hended hstream hmemory hdecompressed
  have hdata : (walked.decompressed written).data.length =
      walked.height.toNat * (1 + walked.rowBytes) := by
    rw [Image.decompressed, List.length_append, List.length_drop, length_resize,
      toNat_expectedStreamSize hlarge, hlength, Nat.sub_self, Nat.add_zero]
  obtain ⟨read, pixels, hloops⟩ :=
    @exists_reconstructImage (walked.decompressed written) hrow hsize hdata
  have hreturns : (processChunks env (some rest) image).verdict ≠ none := by
    rw [hprocessed]
    exact Option.some_ne_none _
  have hload := load_returned hreturns (by rw [hprocessed]; exact hloops)
  rw [hload, hprocessed]
  refine ⟨Outcome.noConfusion, ?_, ?_⟩
  · rw [exact_append, exact_append, exact_streamSizes_iff, pixelSizes_decompressed,
      exact_pixelSizes_iff]
    exact ⟨⟨hexact, hlarge⟩, by omega, hrow⟩
  · intro _
    exact ⟨_, rfl, rfl, congrArg some hlength⟩

/-- A file is loaded safely if and only if it is not taken for a PNG file, or its chunks and
its decompression give an image whose sizes are right and fit. -/
theorem load_safe_iff_loadable (env : Environment) (contents : Option Bytes) (image : Image) :
    (load env contents image).Safe ↔ Loadable env image contents := by
  constructor
  · intro h
    cases contents with
    | none => exact .unopened
    | some contents =>
        by_cases hsigned : pngSignature <+: contents
        · obtain ⟨rest, rfl⟩ := hsigned
          exact loadable_of_safe h
        · exact .unsigned hsigned
  · intro h
    cases h with
    | unopened => exact safe_of_false rfl
    | unsigned hsigned => exact safe_of_false (load_unsigned hsigned)
    | unallocated hwalk hstream hlarge hmemory =>
        exact safe_of_unallocated hwalk hstream hlarge hmemory
    | complete hwalk hstream hrow hsize hmemory hdecompressed hlength =>
        exact safe_of_complete hwalk hstream hrow hsize hmemory hdecompressed hlength

end

/-- A file of nothing but the signature is loaded. -/
theorem signature_alone : ¬∀ (env : Environment) (contents : Option Bytes) (image : Image),
    (load env contents image).Safe := by
  intro h
  have hsafe := h ⟨fun _ _ => (-3, []), fun _ _ => Nat.zero_le _, fun _ => true, [0, 0, 0, 0],
    [0, 0, 0, 0], [0, 0, 0, 0]⟩ (some (pngSignature ++ [])) .empty
  refine not_safe_of_false ?_ hsafe
  exact processChunks_empty (walkChunks_of_walk (.short (by decide) (by decide))).choose_spec.2 rfl

end TChat.Parser
