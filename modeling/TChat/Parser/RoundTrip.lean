import TChat.Parser.Load
/-!
# From a file to its pixels

What `Load` leaves in `pixels` for a file of a well-formed sequence of chunks: the image whose
filtered rows are the data of the file, and no other.
-/

namespace TChat.Parser

open TChat.Common TChat.Lib

/-- The loops are as far as `Within` says, and the first `n` bytes of `pixels`, filtered, are
those of the data. -/
structure Refiltered (image : Image) (filters : ℕ → FilterType) (rawIndex n : ℕ)
    (loop : Reconstruction) : Prop extends Within image rawIndex loop where
  filtered : ∀ y x, x < image.rowBytes → y * image.rowBytes + x < n →
    image.data[y * (1 + image.rowBytes) + (1 + x)]? =
      some (filterByte image.rowBytes image.channels.toNat loop.pixels (filters y) y x)

section

variable {image : Image} {loop : Reconstruction} {filters : ℕ → FilterType} {y c : ℕ}
  (hpixel : 0 < image.channels.toNat) (hrow : image.rowBytes < 2 ^ 31)
  (hsize : image.height.toNat * image.rowBytes ≤ 2 ^ 31)
  (hdata : image.data.length = image.height.toNat * (1 + image.rowBytes))
  (htypes : ∀ y < image.height.toNat,
    image.data[y * (1 + image.rowBytes)]? = some (filters y).code)
  (hy : y < image.height.toNat)

include hpixel hrow hsize hdata hy

theorem reconstructByte_refiltered (hc : c < image.rowBytes)
    (h : Refiltered image filters (y * (1 + image.rowBytes) + (1 + c)) (y * image.rowBytes + c)
      loop) :
    ∃ loop', reconstructByte image (filters y).code (UInt32.ofNat y) c loop = some loop' ∧
      Refiltered image filters (y * (1 + image.rowBytes) + (1 + (c + 1)))
        (y * image.rowBytes + (c + 1)) loop' := by
  have hinside : y * image.rowBytes + c < image.height.toNat * image.rowBytes := index_lt hy hc
  have hpixels : y * image.rowBytes + c < loop.pixels.length := by
    rwa [h.length]
  have hread : loop.rawIndex < image.data.length := by
    rw [h.rawIndex, hdata]
    exact index_lt hy (Nat.add_lt_add_left hc 1)
  have hbyte : reconstructByte image (filters y).code (UInt32.ofNat y) c loop = _ :=
    reconstructByte_eq hrow (Nat.lt_of_lt_of_le hinside hsize) (hy.trans image.height.toNat_lt) hc
      hpixels (List.getElem?_eq_getElem hread)
  rw [unfilter_code] at hbyte
  obtain ⟨loop', hbyte', hwithin⟩ :=
    reconstructByte_within hrow hsize hdata hy (filters y).code hc h.toWithin
  rw [hbyte, Option.some.injEq] at hbyte'
  subst hbyte'
  refine ⟨_, hbyte, hwithin, ?_⟩
  intro row x hx hn
  rcases Nat.lt_succ_iff_lt_or_eq.mp hn with hlt | heq
  · rw [h.filtered row x hx hlt]
    apply congrArg some
    apply filterByte_congr _ _ hlt
    intro k hk
    exact (List.getElem?_set_ne hk.ne').symm
  · obtain ⟨rfl, rfl⟩ := index_inj hx hc heq
    rw [filterByte_set _ hpixel hx hpixels, ← h.rawIndex, List.getElem?_eq_getElem hread]

include htypes

theorem reconstructRow_refiltered
    (h : Refiltered image filters (y * (1 + image.rowBytes)) (y * image.rowBytes) loop) :
    ∃ loop', reconstructRow image y loop = some loop' ∧
      Refiltered image filters ((y + 1) * (1 + image.rowBytes)) ((y + 1) * image.rowBytes)
        loop' := by
  have htype : image.data[loop.rawIndex]? = some (filters y).code := by
    rw [h.rawIndex, htypes y hy]
  have hstart : Refiltered image filters (y * (1 + image.rowBytes) + (1 + 0))
      (y * image.rowBytes + 0) { loop with rawIndex := loop.rawIndex + 1 } :=
    ⟨⟨by rw [h.rawIndex], h.length⟩, h.filtered⟩
  obtain ⟨loop', hloop, hrefiltered⟩ := forRange_invariant
    (fun c loop => Refiltered image filters (y * (1 + image.rowBytes) + (1 + c))
      (y * image.rowBytes + c) loop) hstart
    fun c loop hc hloop => reconstructByte_refiltered hpixel hrow hsize hdata hy hc hloop
  refine ⟨loop', ?_, ?_⟩
  · unfold reconstructRow
    rw [htype, stride_eq hrow, Int.toNat_natCast]
    exact hloop
  · rwa [Nat.succ_mul, Nat.succ_mul]

omit hy in
/-- The loops read all of the data, and leave an image that has it for its filtered rows. -/
theorem reconstructImage_refiltered : ∃ pixels,
    reconstructImage image = some (image.data.length, { image with pixels := pixels }) ∧
      pixels.length = image.height.toNat * image.rowBytes ∧
      image.data = filterImage image.rowBytes image.channels.toNat pixels filters
        image.height.toNat := by
  have hstart : Refiltered image filters (0 * (1 + image.rowBytes)) (0 * image.rowBytes)
      ⟨0, resize image.pixels image.pixelBytes.toNat⟩ := by
    refine ⟨⟨(Nat.zero_mul _).symm, ?_⟩, fun y x hx hn => ?_⟩
    · rw [length_resize, toNat_pixelBytes (by omega)]
    · rw [Nat.zero_mul] at hn
      exact absurd hn (Nat.not_lt_zero _)
  obtain ⟨loop, hloop, hrefiltered⟩ := forRange_invariant
    (fun y loop => Refiltered image filters (y * (1 + image.rowBytes)) (y * image.rowBytes) loop)
    hstart fun y loop hy h => reconstructRow_refiltered hpixel hrow hsize hdata htypes hy h
  refine ⟨loop.pixels, ?_, hrefiltered.length, ?_⟩
  · unfold reconstructImage
    rw [hdata, ← hrefiltered.rawIndex]
    simp only [hloop, bind, Option.bind_some]
  · apply eq_filterImage hdata htypes
    intro y hy x hx
    exact hrefiltered.filtered y x hx (index_lt hy hx)

end

section

variable {env : Environment} {image walked : Image} {file : Stream} {rest written : Bytes}
  {filters : ℕ → FilterType}

theorem ColorChannels.pos {colorType : UInt8} {channels : UInt32}
    (h : ColorChannels colorType channels) : 0 < channels.toNat := by
  cases h <;> decide

theorem decompressed_data (hlarge : 1 + walked.rowBytes < 2 ^ 32)
    (hlength : written.length = walked.height.toNat * (1 + walked.rowBytes)) :
    (walked.decompressed written).data = written := by
  have hdrop : (resize walked.data walked.expectedStreamSize.toNat).drop written.length = [] := by
    rw [List.drop_eq_nil_iff, length_resize, toNat_expectedStreamSize hlarge, hlength]
  rw [Image.decompressed, hdrop, List.append_nil]

theorem load_rows (hwalk : Walk env rest image file walked) (hstream : walked.zlibStream ≠ [])
    (hpixel : 0 < walked.channels.toNat) (hrow : walked.rowBytes < 2 ^ 31)
    (hsize : walked.height.toNat * walked.rowBytes ≤ 2 ^ 31)
    (hmemory : env.allocates (walked.height.toNat * (1 + walked.rowBytes)) = true)
    (hdecompressed : env.uncompress walked.zlibStream
      (walked.height.toNat * (1 + walked.rowBytes)) = (zOk, written))
    (hlength : written.length = walked.height.toNat * (1 + walked.rowBytes))
    (htypes : ∀ y < walked.height.toNat,
      written[y * (1 + walked.rowBytes)]? = some (filters y).code) :
    ∃ pixels processed sizes, load env (some (pngSignature ++ rest)) image =
        ⟨.returned true, { walked.decompressed written with pixels := pixels }, processed,
          sizes⟩ ∧
      pixels.length = walked.height.toNat * walked.rowBytes ∧
      written = filterImage walked.rowBytes walked.channels.toNat pixels filters
        walked.height.toNat := by
  have hlarge : 1 + walked.rowBytes < 2 ^ 32 := by omega
  have hdata := decompressed_data hlarge hlength
  obtain ⟨sizes, -, hended⟩ := walkChunks_of_walk hwalk
  rw [← toNat_expectedStreamSize hlarge] at hmemory hdecompressed
  have hprocessed := processChunks_decompressed hended hstream hmemory hdecompressed
  obtain ⟨pixels, hloops, hpixels, hfiltered⟩ :=
    @reconstructImage_refiltered (walked.decompressed written) filters hpixel hrow hsize
      (by rw [hdata]; exact hlength) (by rw [hdata]; exact htypes)
  have hreturns : (processChunks env (some rest) image).verdict ≠ none := by
    rw [hprocessed]
    exact Option.some_ne_none _
  have hload := load_returned hreturns (by rw [hprocessed]; exact hloops)
  refine ⟨pixels, _, _, hload, hpixels, ?_⟩
  rwa [hdata] at hfiltered

end

/-- For every well-formed sequence of chunks of an image whose bytes an `int` can count,
whatever the cut into data chunks, the chunks in between and the bytes after the end: if
`uncompress` makes of its stream all the rows, each with a type of filter, then `Load` returns
`true` with the sizes of the header, and `pixels` is the image whose filtered rows these
are. -/
theorem load_encode (env : Environment) (sequence : ChunkSequence) (trailing written : Bytes)
    (filters : ℕ → FilterType) (hstream : sequence.zlibStream ≠ [])
    (hrow : sequence.width.toNat * sequence.channels.toNat < 2 ^ 31)
    (hsize : sequence.height.toNat * (sequence.width.toNat * sequence.channels.toNat) ≤ 2 ^ 31)
    (hmemory : env.allocates
      (sequence.height.toNat * (1 + sequence.width.toNat * sequence.channels.toNat)) = true)
    (hdecompressed : env.uncompress sequence.zlibStream
      (sequence.height.toNat * (1 + sequence.width.toNat * sequence.channels.toNat)) =
        (zOk, written))
    (hlength : written.length =
      sequence.height.toNat * (1 + sequence.width.toNat * sequence.channels.toNat))
    (htypes : ∀ y < sequence.height.toNat,
      written[y * (1 + sequence.width.toNat * sequence.channels.toNat)]? =
        some (filters y).code) :
    ∃ loading, load env (some (pngSignature ++ (sequence.encode ++ trailing))) Image.empty =
        loading ∧
      loading.outcome = .returned true ∧ loading.Safe ∧
      loading.image.width = sequence.width ∧ loading.image.height = sequence.height ∧
      loading.image.channels = sequence.channels ∧
      ∀ P : Bytes, loading.image.pixels = P ↔
        P.length = sequence.height.toNat * (sequence.width.toNat * sequence.channels.toNat) ∧
          ∃ filters, written =
            filterImage (sequence.width.toNat * sequence.channels.toNat)
              sequence.channels.toNat P filters sequence.height.toNat := by
  have hchannels := sequence.color.pos
  have hwalk := @walk_encode env sequence trailing
  obtain ⟨pixels, processed, sizes, hload, hpixels, hfiltered⟩ :=
    load_rows hwalk hstream hchannels hrow hsize hmemory hdecompressed hlength htypes
  have hsafe := safe_of_complete hwalk hstream hrow hsize hmemory hdecompressed hlength
  refine ⟨_, rfl, ?_⟩
  rw [hload] at hsafe ⊢
  refine ⟨rfl, hsafe, rfl, rfl, rfl, fun P => ?_⟩
  constructor
  · rintro rfl
    exact ⟨hpixels, filters, hfiltered⟩
  · rintro ⟨hP, filters', hfiltered'⟩
    exact filterImage_inj hchannels hpixels hP (hfiltered.symm.trans hfiltered')

theorem load_encode_square :
    ∃ loading, load squareEnvironment
        (some (pngSignature ++ (square.encode ++ literal "more"))) Image.empty = loading ∧
      loading.outcome = .returned true ∧
      loading.image.pixels = [10, 20, 30, 11, 22, 33, 200, 100, 50, 255, 0, 128] := by
  obtain ⟨loading, hload, houtcome, -, -, -, -, hpixels⟩ := load_encode squareEnvironment square
    (literal "more") squareRows (fun y => if y = 0 then .sub else .paeth) (by decide) (by decide)
    (by decide) rfl (by decide) (by decide) (by decide)
  refine ⟨loading, hload, houtcome, (hpixels _).mpr ⟨by decide, ?_⟩⟩
  exact ⟨fun y => if y = 0 then .sub else .paeth, by decide⟩

end TChat.Parser
