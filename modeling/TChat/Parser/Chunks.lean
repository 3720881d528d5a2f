import TChat.Parser.PngLoader
/-!
# The chunks

What `processChunks` makes of the bytes after the signature: the sequences of chunks that its
loop accepts, and what it takes from well-formed ones.
-/

namespace TChat.Parser

open TChat.Common TChat.Lib

/-- The color types that the loader takes, with their channels. -/
inductive ColorChannels : UInt8 → UInt32 → Prop
  | rgb : ColorChannels 2 3
  | rgba : ColorChannels 6 4

def knownTypes : List Bytes := [literal "IHDR", literal "IDAT", literal "IEND"]

/-- The bytes that the loop accepts from `image` on, with the file and the image it leaves:
chunks up to `IEND` or up to the end of the file, of which the last may be cut off.  No length
is so large that its sum with the 4 bytes of the CRC wraps. -/
inductive Walk (env : Environment) : Bytes → Image → Stream → Image → Prop
  | short {rest : Bytes} {image : Image} :
      rest.length < 8 → (readBigEndian32 env.lengthBytes (some rest)).1.toNat + 4 < 2 ^ 32 →
      Walk env rest image none image
  | finish {length rest : Bytes} {image : Image} :
      length.length = 4 → Walk env (length ++ literal "IEND" ++ rest) image (some rest) image
  | header {length width height methods crc rest : Bytes} {colorType : UInt8} {channels : UInt32}
      {image image' : Image} {file : Stream} :
      length.length = 4 → width.length = 4 → height.length = 4 → methods.length = 3 →
      crc.length = 4 → ColorChannels colorType channels →
      Walk env rest
        { image with
          width := bigEndianWord width, height := bigEndianWord height, channels := channels }
        file image' →
      Walk env
        (length ++ literal "IHDR" ++
          (width ++ height ++ [8, colorType] ++ (methods ++ crc ++ rest))) image file image'
  | headerCut {length width height rest : Bytes} {colorType : UInt8} {channels : UInt32}
      {image : Image} :
      length.length = 4 → width.length = 4 → height.length = 4 → rest.length < 7 →
      ColorChannels colorType channels →
      Walk env (length ++ literal "IHDR" ++ (width ++ height ++ [8, colorType] ++ rest)) image none
        { image with
          width := bigEndianWord width, height := bigEndianWord height, channels := channels }
  | data {length contents crc rest : Bytes} {image image' : Image} {file : Stream} :
      length.length = 4 → contents.length = (bigEndianWord length).toNat → crc.length = 4 →
      Walk env rest { image with zlibStream := image.zlibStream ++ contents } file image' →
      Walk env (length ++ literal "IDAT" ++ (contents ++ crc ++ rest)) image file image'
  | dataCut {length rest : Bytes} {image : Image} :
      length.length = 4 → rest.length < (bigEndianWord length).toNat + 4 →
      Walk env (length ++ literal "IDAT" ++ rest) image none
        { image with
          zlibStream := image.zlibStream ++
            (rest.take (bigEndianWord length).toNat ++
              List.replicate ((bigEndianWord length).toNat - rest.length) 0) }
  | skip {length type rest : Bytes} {image image' : Image} {file : Stream} :
      length.length = 4 → type.length = 4 → type ∉ knownTypes →
      (bigEndianWord length).toNat + 4 < 2 ^ 32 →
      Walk env (rest.drop ((bigEndianWord length).toNat + 4)) image file image' →
      Walk env (length ++ type ++ rest) image file image'

def WalkFrom (env : Environment) : Stream → Image → Stream → Image → Prop
  | none, image, file, image' => file = none ∧ image' = image
  | some rest, image, file, image' => Walk env rest image file image'

def Exact (sizes : List Size) : Prop := ∀ size ∈ sizes, size.computed = size.exact

section

variable {env : Environment} {image image' walked : Image} {file file' : Stream} {sizes : List Size}
  {length type body rest bytes : Bytes} {n : ℕ}

/-! ## Reading -/

theorem exists_cut {n m : ℕ} (h : n + m ≤ bytes.length) :
    ∃ first second rest : Bytes, first.length = n ∧ second.length = m ∧
      bytes = first ++ second ++ rest := by
  refine ⟨bytes.take n, (bytes.drop n).take m, (bytes.drop n).drop m, ?_, ?_, ?_⟩
  · rw [List.length_take]
    omega
  · rw [List.length_take, List.length_drop]
    omega
  · rw [List.append_assoc, List.take_append_drop, List.take_append_drop]

theorem read_append (bytes rest : Bytes) :
    Stream.read bytes.length (some (bytes ++ rest)) = (bytes, some rest) := by
  rw [Stream.read, List.take_left, List.drop_left, if_pos (by simp)]

theorem bigEndianWord_append (h : bytes.length = 4) (more : Bytes) :
    bigEndianWord (bytes ++ more) = bigEndianWord bytes := by
  have hgetD (i : ℕ) (hi : i < 4) : (bytes ++ more).getD i 0 = bytes.getD i 0 :=
    List.getD_append _ _ _ _ (by omega)
  simp only [bigEndianWord, hgetD 0 (by decide), hgetD 1 (by decide), hgetD 2 (by decide),
    hgetD 3 (by decide)]

theorem readBigEndian32_append (h : bytes.length = 4) (garbage rest : Bytes) :
    readBigEndian32 garbage (some (bytes ++ rest)) = (bigEndianWord bytes, some rest) := by
  have hread := read_append bytes rest
  rw [h] at hread
  rw [readBigEndian32, hread]
  dsimp only
  rw [bigEndianWord_append h]

theorem get_cons (byte : UInt8) (rest : Bytes) :
    Stream.get (some (byte :: rest)) = (byte, some rest) := rfl

theorem get_nil : Stream.get (some []) = (255, none) := rfl

theorem takeWhile_eq_iff {name : Bytes} (htype : type.length = name.length)
    (hname : 0 ∉ name) : type.takeWhile (· ≠ 0) = name ↔ type = name := by
  constructor
  · intro h
    have hname := List.takeWhile_prefix (l := type) (· ≠ 0)
    rw [h] at hname
    exact (hname.eq_of_length htype.symm).symm
  · intro h
    rw [h, List.takeWhile_eq_self_iff]
    intro byte hbyte
    simpa using ne_of_mem_of_not_mem hbyte hname

theorem read_short (hn : 0 < n) (h : file.left ≤ n) :
    (Stream.read n file).2 = none ∧ (Stream.read n file).1.length < n := by
  cases file with
  | none => exact ⟨rfl, hn⟩
  | some rest =>
      rw [Stream.left_some] at h
      constructor
      · exact if_neg (by omega)
      · exact Nat.lt_of_le_of_lt (List.length_take_le' n rest) (by omega)

/-! ## One chunk -/

theorem processChunk_short (hrest : rest.length < 8) :
    processChunk env (some rest) image =
      (.next none image,
        [⟨((readBigEndian32 env.lengthBytes (some rest)).1 + 4).toNat,
          (readBigEndian32 env.lengthBytes (some rest)).1.toNat + 4⟩]) := by
  have hleft := left_readBigEndian32 env.lengthBytes (some rest)
  rw [Stream.left_some] at hleft
  obtain ⟨hend, hlength⟩ :=
    read_short (n := 4) (by decide) (hleft.trans (by omega : rest.length + 1 - 4 ≤ 4))
  have hother {name : Bytes} (hname : name.length = 4) :
      (Stream.read 4 (readBigEndian32 env.lengthBytes (some rest)).2).1.takeWhile (· ≠ 0) ≠
        name := by
    intro h
    have hle := (List.takeWhile_prefix (· ≠ 0)
      (l := (Stream.read 4 (readBigEndian32 env.lengthBytes (some rest)).2).1)).length_le
    rw [h, hname] at hle
    omega
  unfold processChunk
  dsimp only
  rw [if_neg (hother (by decide)), if_neg (hother (by decide)), if_neg (hother (by decide)), hend]
  rfl

theorem processChunk_eq (hlength : length.length = 4) (htype : type.length = 4) (body : Bytes) :
    processChunk env (some (length ++ type ++ body)) image =
      if type = literal "IHDR" then (processHeader env (some body) image, [])
      else if type = literal "IDAT" then
        (processData (bigEndianWord length) (some body) image, [])
      else if type = literal "IEND" then (.ended (some body) image, [])
      else
        (.next (some (body.drop (bigEndianWord length + 4).toNat)) image,
          [⟨(bigEndianWord length + 4).toNat, (bigEndianWord length).toNat + 4⟩]) := by
  have hread := read_append type body
  rw [htype] at hread
  have hheader : type.takeWhile (· ≠ 0) = literal "IHDR" ↔ type = literal "IHDR" :=
    takeWhile_eq_iff htype (by decide)
  have hdata : type.takeWhile (· ≠ 0) = literal "IDAT" ↔ type = literal "IDAT" :=
    takeWhile_eq_iff htype (by decide)
  have hend : type.takeWhile (· ≠ 0) = literal "IEND" ↔ type = literal "IEND" :=
    takeWhile_eq_iff htype (by decide)
  rw [List.append_assoc, processChunk, readBigEndian32_append hlength]
  dsimp only
  rw [hread]
  dsimp only
  simp only [hheader, hdata, hend, Stream.seekg]

theorem processData_eq (n : UInt32) (rest : Bytes) :
    processData n (some rest) image =
      .next (if n.toNat + 4 ≤ rest.length then some (rest.drop (n.toNat + 4)) else none)
        { image with
          zlibStream := image.zlibStream ++
            (rest.take n.toNat ++ List.replicate (n.toNat - rest.length) 0) } := by
  have hmissing : n.toNat - (rest.take n.toNat).length = n.toNat - rest.length := by
    rw [List.length_take]
    omega
  unfold processData Stream.read
  dsimp only
  rw [hmissing]
  congr 1
  by_cases hdata : n.toNat ≤ rest.length
  · rw [if_pos hdata]
    simp only [readBigEndian32, Stream.read, List.length_drop, List.drop_drop]
    exact if_congr (by omega) rfl rfl
  · rw [if_neg hdata, if_neg (by omega)]
    rfl

theorem ignore_methods (rest : Bytes) :
    (readBigEndian32 [] (Stream.ignore 3 (some rest))).2 =
      if 7 ≤ rest.length then some (rest.drop 7) else none := by
  unfold Stream.ignore
  dsimp only
  by_cases hmethods : 3 ≤ rest.length
  · rw [if_pos hmethods]
    simp only [readBigEndian32, Stream.read, List.length_drop, List.drop_drop]
    exact if_congr (by omega) rfl rfl
  · rw [if_neg hmethods, if_neg (by omega)]
    rfl

theorem processHeader_eq {width height : Bytes} (hwidth : width.length = 4)
    (hheight : height.length = 4) (bitDepth colorType : UInt8) (rest : Bytes) :
    processHeader env (some (width ++ height ++ [bitDepth, colorType] ++ rest)) image =
      let image :=
        { image with width := bigEndianWord width, height := bigEndianWord height }
      let file := if 7 ≤ rest.length then some (rest.drop 7) else none
      if bitDepth ≠ 8 then .rejected (some (colorType :: rest)) image
      else if colorType = 2 then .next file { image with channels := 3 }
      else if colorType = 6 then .next file { image with channels := 4 }
      else .rejected (Stream.ignore 3 (some rest)) image := by
  have hbody : width ++ height ++ [bitDepth, colorType] ++ rest =
      width ++ (height ++ bitDepth :: colorType :: rest) := by
    simp only [List.append_assoc, List.cons_append, List.nil_append]
  rw [hbody, processHeader, readBigEndian32_append hwidth]
  dsimp only
  rw [readBigEndian32_append hheight]
  simp only [get_cons, ignore_methods]

theorem processHeader_short (hbody : body.length < 10) :
    ∃ file image', processHeader env (some body) image = .rejected file image' := by
  have hwidth := left_readBigEndian32 env.widthBytes (some body)
  have hheight :=
    left_readBigEndian32 env.heightBytes (readBigEndian32 env.widthBytes (some body)).2
  rw [Stream.left_some] at hwidth
  unfold processHeader
  dsimp only
  generalize readBigEndian32 env.widthBytes (some body) = width at hwidth hheight ⊢
  generalize readBigEndian32 env.heightBytes width.2 = height at hheight ⊢
  rcases hrest : height.2 with _ | rest
  · exact ⟨_, _, rfl⟩
  · rw [hrest, Stream.left_some] at hheight
    cases rest with
    | nil => exact ⟨_, _, rfl⟩
    | cons bitDepth rest =>
        rw [List.length_cons] at hheight
        obtain rfl : rest = [] := List.length_eq_zero_iff.mp (by omega)
        -- the color type is the `EOF` of `get`
        have hrgb : (255 : UInt8) ≠ 2 := by decide
        have hrgba : (255 : UInt8) ≠ 6 := by decide
        simp only [get_cons, get_nil, hrgb, hrgba, if_false]
        by_cases hdepth : bitDepth ≠ 8
        · exact ⟨_, _, if_pos hdepth⟩
        · exact ⟨_, _, if_neg hdepth⟩

theorem header_of_next (h : processHeader env (some body) image = .next file image') :
    ∃ width height colorType channels rest, width.length = 4 ∧ height.length = 4 ∧
      ColorChannels colorType channels ∧ body = width ++ height ++ [8, colorType] ++ rest ∧
      file = (if 7 ≤ rest.length then some (rest.drop 7) else none) ∧
      image' =
        { image with
          width := bigEndianWord width, height := bigEndianWord height, channels := channels } := by
  by_cases hbody : body.length < 10
  · obtain ⟨_, _, hrejected⟩ := @processHeader_short env image body hbody
    rw [hrejected] at h
    cases h
  · have hlength : (body.drop 8).length = body.length - 8 := List.length_drop
    obtain ⟨bitDepth, colorType, rest, htail⟩ : ∃ bitDepth colorType rest,
        body.drop 8 = bitDepth :: colorType :: rest := by
      match hdrop : body.drop 8 with
      | [] | [_] =>
          rw [hdrop] at hlength
          simp only [List.length_nil, List.length_cons] at hlength
          omega
      | bitDepth :: colorType :: rest => exact ⟨_, _, _, rfl⟩
    have hbytes : body = body.take 4 ++ (body.drop 4).take 4 ++ [bitDepth, colorType] ++ rest :=
      calc
        body = body.take 4 ++ ((body.drop 4).take 4 ++ (body.drop 4).drop 4) := by
          rw [List.take_append_drop, List.take_append_drop]
        _ = body.take 4 ++ ((body.drop 4).take 4 ++ bitDepth :: colorType :: rest) := by
          rw [List.drop_drop, htail]
        _ = body.take 4 ++ (body.drop 4).take 4 ++ [bitDepth, colorType] ++ rest := by
          simp only [List.append_assoc, List.cons_append, List.nil_append]
    have hwidth : (body.take 4).length = 4 := by
      rw [List.length_take]
      omega
    have hheight : ((body.drop 4).take 4).length = 4 := by
      rw [List.length_take, List.length_drop]
      omega
    generalize body.take 4 = width at hbytes hwidth
    generalize (body.drop 4).take 4 = height at hbytes hheight
    rw [hbytes, processHeader_eq hwidth hheight] at h
    dsimp only at h
    by_cases hdepth : bitDepth ≠ 8
    · rw [if_pos hdepth] at h
      cases h
    · rw [if_neg hdepth] at h
      obtain rfl : bitDepth = 8 := not_not.mp hdepth
      by_cases hrgb : colorType = 2
      · subst hrgb
        rw [if_pos rfl] at h
        obtain ⟨rfl, rfl⟩ := ChunkResult.next.inj h
        exact ⟨width, height, 2, 3, rest, hwidth, hheight, .rgb, hbytes, rfl, rfl⟩
      · rw [if_neg hrgb] at h
        by_cases hrgba : colorType = 6
        · subst hrgba
          rw [if_pos rfl] at h
          obtain ⟨rfl, rfl⟩ := ChunkResult.next.inj h
          exact ⟨width, height, 6, 4, rest, hwidth, hheight, .rgba, hbytes, rfl, rfl⟩
        · rw [if_neg hrgba] at h
          cases h

theorem processHeader_accepts {width height : Bytes} {colorType : UInt8} {channels : UInt32}
    (hwidth : width.length = 4) (hheight : height.length = 4)
    (hcolor : ColorChannels colorType channels) (rest : Bytes) :
    processHeader env (some (width ++ height ++ [8, colorType] ++ rest)) image =
      .next (if 7 ≤ rest.length then some (rest.drop 7) else none)
        { image with
          width := bigEndianWord width, height := bigEndianWord height, channels := channels } := by
  rw [processHeader_eq hwidth hheight]
  cases hcolor <;> rfl

/-! ## The walk -/

theorem walkChunks_none : walkChunks env none image = (.ended none image, []) := by
  rw [walkChunks]

theorem walkChunks_next {file : Stream} {bytes : Bytes} {image'' : Image}
    (h : processChunk env (some bytes) image = (.next file image'', sizes)) :
    walkChunks env (some bytes) image =
      ((walkChunks env file image'').1, sizes ++ (walkChunks env file image'').2) := by
  rw [walkChunks]
  split <;> simp_all

theorem walkChunks_ended (h : processChunk env (some bytes) image = (.ended file image', sizes)) :
    walkChunks env (some bytes) image = (.ended file image', sizes) := by
  rw [walkChunks]
  split <;> simp_all

theorem walkChunks_rejected
    (h : processChunk env (some bytes) image = (.rejected file image', sizes)) :
    walkChunks env (some bytes) image = (.rejected file image', sizes) := by
  rw [walkChunks]
  split <;> simp_all

theorem toNat_add_four (length : UInt32) :
    (length + 4).toNat = length.toNat + 4 ↔ length.toNat + 4 < 2 ^ 32 := by
  have hlength := length.toNat_lt
  have hsum : (length + 4).toNat = (length.toNat + 4) % 2 ^ 32 := UInt32.toNat_add _ _
  rw [hsum]
  omega

theorem exact_skip_iff (length : UInt32) :
    Exact [⟨(length + 4).toNat, length.toNat + 4⟩] ↔ length.toNat + 4 < 2 ^ 32 := by
  rw [← toNat_add_four, Exact]
  simp only [List.mem_singleton, forall_eq]
  omega

theorem exact_append {more : List Size} : Exact (sizes ++ more) ↔ Exact sizes ∧ Exact more :=
  List.forall_mem_append

/-- The loop accepts what `Walk` describes. -/
theorem walkChunks_of_walk (h : Walk env bytes image file image') :
    ∃ sizes, Exact sizes ∧ walkChunks env (some bytes) image = (.ended file image', sizes) := by
  induction h with
  | @short rest image hrest hsize =>
      refine ⟨_, (exact_skip_iff _).mpr hsize, ?_⟩
      rw [walkChunks_next (processChunk_short hrest), walkChunks_none, List.append_nil]
  | @finish length rest image hlength =>
      refine ⟨[], by simp [Exact], walkChunks_ended ?_⟩
      rw [processChunk_eq hlength (by decide), if_neg (by decide), if_neg (by decide), if_pos rfl]
  | @header length width height methods crc rest colorType channels image image' file hlength hwidth
      hheight hmethods hcrc hcolor _ ih =>
      obtain ⟨sizes, hexact, hwalk⟩ := ih
      have hrest : (methods ++ crc ++ rest).drop 7 = rest := by
        rw [List.drop_left' (by rw [List.length_append]; omega)]
      have hlong : 7 ≤ (methods ++ crc ++ rest).length := by
        rw [List.length_append, List.length_append]
        omega
      refine ⟨sizes, hexact, ?_⟩
      rw [walkChunks_next (by
        rw [processChunk_eq hlength (by decide), if_pos rfl,
          processHeader_accepts hwidth hheight hcolor, if_pos hlong, hrest]), hwalk,
        List.nil_append]
  | @headerCut length width height rest colorType channels image hlength hwidth hheight hrest
      hcolor =>
      refine ⟨[], by simp [Exact], ?_⟩
      rw [walkChunks_next (by
        rw [processChunk_eq hlength (by decide), if_pos rfl,
          processHeader_accepts hwidth hheight hcolor, if_neg (by omega)]), walkChunks_none,
        List.nil_append]
  | @data length contents crc rest image image' file hlength hcontents hcrc _ ih =>
      obtain ⟨sizes, hexact, hwalk⟩ := ih
      have hdrop : (contents ++ crc ++ rest).drop ((bigEndianWord length).toNat + 4) = rest := by
        rw [List.drop_left' (by rw [List.length_append]; omega)]
      have htake : (contents ++ crc ++ rest).take (bigEndianWord length).toNat = contents := by
        rw [List.append_assoc, List.take_left' hcontents]
      have hlong : (bigEndianWord length).toNat + 4 ≤ (contents ++ crc ++ rest).length := by
        rw [List.length_append, List.length_append]
        omega
      refine ⟨sizes, hexact, ?_⟩
      rw [walkChunks_next (by
        rw [processChunk_eq hlength (by decide), if_neg (by decide), if_pos rfl, processData_eq,
          if_pos hlong, hdrop, htake, Nat.sub_eq_zero_of_le (by omega), List.replicate_zero,
          List.append_nil]), hwalk, List.nil_append]
  | @dataCut length rest image hlength hrest =>
      refine ⟨[], by simp [Exact], ?_⟩
      rw [walkChunks_next (by
        rw [processChunk_eq hlength (by decide), if_neg (by decide), if_pos rfl, processData_eq,
          if_neg (by omega)]), walkChunks_none, List.nil_append]
  | @skip length type rest image image' file hlength htype hunknown hsize _ ih =>
      obtain ⟨sizes, hexact, hwalk⟩ := ih
      simp only [knownTypes, List.mem_cons, List.not_mem_nil, or_false, not_or] at hunknown
      obtain ⟨hheader, hdata, hend⟩ := hunknown
      have hsum := (toNat_add_four (bigEndianWord length)).mpr hsize
      refine ⟨_, exact_append.mpr ⟨(exact_skip_iff _).mpr hsize, hexact⟩, ?_⟩
      rw [walkChunks_next (by
        rw [processChunk_eq hlength htype, if_neg hheader, if_neg hdata, if_neg hend]), hsum,
        hwalk]

theorem processHeader_not_ended (h : processHeader env file image = .ended file' image') :
    False := by
  unfold processHeader at h
  dsimp only at h
  split_ifs at h

theorem walk_of_header (hlength : length.length = 4)
    (h : processHeader env (some body) image = .next file image')
    (hfrom : WalkFrom env file image' file' walked) :
    Walk env (length ++ literal "IHDR" ++ body) image file' walked := by
  obtain ⟨width, height, colorType, channels, rest, hwidth, hheight, hcolor, rfl, rfl, rfl⟩ :=
    header_of_next h
  by_cases hlong : 7 ≤ rest.length
  · obtain ⟨methods, crc, rest, hmethods, hcrc, rfl⟩ := exists_cut (n := 3) (m := 4) hlong
    rw [if_pos hlong, List.drop_left' (by rw [List.length_append]; omega)] at hfrom
    exact .header hlength hwidth hheight hmethods hcrc hcolor hfrom
  · rw [if_neg hlong] at hfrom
    obtain ⟨rfl, rfl⟩ := hfrom
    exact .headerCut hlength hwidth hheight (by omega) hcolor

theorem walk_of_data (hlength : length.length = 4)
    (h : processData (bigEndianWord length) (some body) image = .next file image')
    (hfrom : WalkFrom env file image' file' walked) :
    Walk env (length ++ literal "IDAT" ++ body) image file' walked := by
  rw [processData_eq] at h
  obtain ⟨rfl, rfl⟩ := ChunkResult.next.inj h
  by_cases hlong : (bigEndianWord length).toNat + 4 ≤ body.length
  · obtain ⟨contents, crc, rest, hcontents, hcrc, rfl⟩ := exists_cut hlong
    rw [if_pos hlong, List.drop_left' (by rw [List.length_append]; omega),
      List.append_assoc contents, List.take_left' hcontents,
      Nat.sub_eq_zero_of_le (by rw [List.length_append]; omega), List.replicate_zero,
      List.append_nil] at hfrom
    exact .data hlength hcontents hcrc hfrom
  · rw [if_neg hlong] at hfrom
    obtain ⟨rfl, rfl⟩ := hfrom
    exact .dataCut hlength (by omega)

theorem walk_of_next (h : processChunk env (some bytes) image = (.next file image', sizes))
    (hexact : Exact sizes) (hfrom : WalkFrom env file image' file' walked) :
    Walk env bytes image file' walked := by
  by_cases hshort : bytes.length < 8
  · rw [processChunk_short hshort] at h
    obtain ⟨hnext, rfl⟩ := Prod.mk.inj h
    obtain ⟨rfl, rfl⟩ := ChunkResult.next.inj hnext
    obtain ⟨rfl, rfl⟩ := hfrom
    exact .short hshort ((exact_skip_iff _).mp hexact)
  · obtain ⟨length, type, body, hlength, htype, rfl⟩ :=
      exists_cut (n := 4) (m := 4) (Nat.not_lt.mp hshort)
    rw [processChunk_eq hlength htype] at h
    split_ifs at h with hheader hdata hend
    · rw [hheader]
      exact walk_of_header hlength (Prod.mk.inj h).1 hfrom
    · rw [hdata]
      exact walk_of_data hlength (Prod.mk.inj h).1 hfrom
    · cases (Prod.mk.inj h).1
    · obtain ⟨hnext, rfl⟩ := Prod.mk.inj h
      obtain ⟨rfl, rfl⟩ := ChunkResult.next.inj hnext
      have hsize := (exact_skip_iff _).mp hexact
      rw [(toNat_add_four _).mpr hsize] at hfrom
      exact .skip hlength htype (by simp [knownTypes, hheader, hdata, hend]) hsize hfrom

theorem walk_of_ended (h : processChunk env (some bytes) image = (.ended file image', sizes)) :
    Walk env bytes image file image' := by
  by_cases hshort : bytes.length < 8
  · rw [processChunk_short hshort] at h
    cases (Prod.mk.inj h).1
  · obtain ⟨length, type, body, hlength, htype, rfl⟩ :=
      exists_cut (n := 4) (m := 4) (Nat.not_lt.mp hshort)
    rw [processChunk_eq hlength htype] at h
    split_ifs at h with hheader hdata hend
    · exact (processHeader_not_ended (Prod.mk.inj h).1).elim
    · cases (Prod.mk.inj h).1
    · obtain ⟨rfl, rfl⟩ := ChunkResult.ended.inj (Prod.mk.inj h).1
      rw [hend]
      exact .finish hlength
    · cases (Prod.mk.inj h).1

/-- `Walk` describes all that the loop accepts without a wrap. -/
theorem walkFrom_of_walkChunks (h : walkChunks env file image = (.ended file' walked, sizes))
    (hexact : Exact sizes) : WalkFrom env file image file' walked := by
  induction hn : file.left using Nat.strong_induction_on generalizing file image sizes with
  | h n ih =>
    subst hn
    cases file with
    | none =>
        rw [walkChunks_none] at h
        obtain ⟨rfl, rfl⟩ := WalkResult.ended.inj (Prod.mk.inj h).1
        exact ⟨rfl, rfl⟩
    | some bytes =>
        cases hchunk : processChunk env (some bytes) image with
        | mk result first =>
            cases result with
            | next file image' =>
                rw [walkChunks_next hchunk] at h
                obtain ⟨hended, rfl⟩ := Prod.mk.inj h
                obtain ⟨hfirst, hmore⟩ := exact_append.mp hexact
                have hleft := left_of_next hchunk
                rw [Stream.left_some] at hleft
                have hfrom := ih _ (by rw [Stream.left_some]; omega) (Prod.ext hended rfl) hmore rfl
                exact walk_of_next hchunk hfirst hfrom
            | ended file image' =>
                rw [walkChunks_ended hchunk] at h
                obtain ⟨rfl, rfl⟩ := WalkResult.ended.inj (Prod.mk.inj h).1
                exact walk_of_ended hchunk
            | rejected file image' =>
                rw [walkChunks_rejected hchunk] at h
                cases (Prod.mk.inj h).1

end

/-! ## Well-formed sequences -/

theorem toNat_bigEndianWord (a b c d : UInt8) :
    (bigEndianWord [a, b, c, d]).toNat = readBigEndian [a, b, c, d] := by
  have hword : bigEndianWord [a, b, c, d] =
      a.toUInt32 <<< 24 ||| b.toUInt32 <<< 16 ||| c.toUInt32 <<< 8 ||| d.toUInt32 := rfl
  have hshift (byte : UInt8) {k : UInt32} (hk : k.toNat ≤ 24) :
      (byte.toUInt32 <<< k).toNat = 2 ^ k.toNat * byte.toNat := by
    have hbyte := byte.toNat_lt
    have hle : 2 ^ k.toNat ≤ 2 ^ 24 := Nat.pow_le_pow_right (by decide) hk
    have hlt : byte.toNat * 2 ^ k.toNat < 2 ^ 32 :=
      calc
        byte.toNat * 2 ^ k.toNat ≤ byte.toNat * 2 ^ 24 := Nat.mul_le_mul_left _ hle
        _ < 2 ^ 32 := by omega
    rw [UInt32.toNat_shiftLeft, UInt8.toNat_toUInt32, Nat.mod_eq_of_lt (by omega : k.toNat < 32),
      Nat.shiftLeft_eq, Nat.mod_eq_of_lt hlt, Nat.mul_comm]
  have hb := b.toNat_lt
  have hc := c.toNat_lt
  have hd := d.toNat_lt
  calc
    (bigEndianWord [a, b, c, d]).toNat =
        2 ^ 24 * a.toNat ||| 2 ^ 16 * b.toNat ||| 2 ^ 8 * c.toNat ||| d.toNat := by
      rw [hword, UInt32.toNat_or, UInt32.toNat_or, UInt32.toNat_or, hshift a (by decide),
        hshift b (by decide), hshift c (by decide), UInt8.toNat_toUInt32]
      rfl
    _ = 2 ^ 16 * (2 ^ 8 * a.toNat + b.toNat) ||| 2 ^ 8 * c.toNat ||| d.toNat := by
      rw [← Nat.two_pow_add_eq_or_of_lt (by omega : 2 ^ 16 * b.toNat < 2 ^ 24)]
      congr 3
      ring
    _ = 2 ^ 8 * (2 ^ 16 * a.toNat + 2 ^ 8 * b.toNat + c.toNat) ||| d.toNat := by
      rw [← Nat.two_pow_add_eq_or_of_lt (by omega : 2 ^ 8 * c.toNat < 2 ^ 16)]
      congr 2
      ring
    _ = readBigEndian [a, b, c, d] := by
      rw [← Nat.two_pow_add_eq_or_of_lt (by omega : d.toNat < 2 ^ 8)]
      simp only [readBigEndian, List.foldl_cons, List.foldl_nil]
      ring

theorem bigEndianWord_bigEndian (n : UInt32) : bigEndianWord (bigEndian 4 n.toNat) = n := by
  rw [← UInt32.toNat_inj]
  have hvalue := readBigEndian_bigEndian 4 n.toNat
  have hn := n.toNat_lt
  rw [Nat.mod_eq_of_lt (by omega)] at hvalue
  exact (toNat_bigEndianWord _ _ _ _).trans hvalue

structure Chunk where
  type : Bytes
  data : Bytes
  crc : Bytes
  length_type : type.length = 4
  length_data : data.length < 2 ^ 31
  length_crc : crc.length = 4

def Chunk.encode (chunk : Chunk) : Bytes :=
  bigEndian 4 chunk.data.length ++ chunk.type ++ chunk.data ++ chunk.crc

/-- The chunks of an image of depth 8 with or without an alpha channel: a header, any number
of data chunks with others between them, and an end. -/
structure ChunkSequence where
  width : UInt32
  height : UInt32
  colorType : UInt8
  channels : UInt32
  methods : Bytes
  header : Chunk
  chunks : List Chunk
  last : Chunk
  color : ColorChannels colorType channels
  length_methods : methods.length = 3
  type_header : header.type = literal "IHDR"
  data_header : header.data =
    bigEndian 4 width.toNat ++ bigEndian 4 height.toNat ++ [8, colorType] ++ methods
  type_chunks : ∀ chunk ∈ chunks, chunk.type ≠ literal "IHDR" ∧ chunk.type ≠ literal "IEND"
  type_last : last.type = literal "IEND"

namespace ChunkSequence

def encode (sequence : ChunkSequence) : Bytes :=
  sequence.header.encode ++ sequence.chunks.flatMap Chunk.encode ++ sequence.last.encode

def zlibStream (sequence : ChunkSequence) : Bytes :=
  (sequence.chunks.filter (·.type = literal "IDAT")).flatMap (·.data)

end ChunkSequence

section

variable {env : Environment} {image image' : Image} {file : Stream} {rest : Bytes}

theorem bigEndianWord_length (chunk : Chunk) :
    (bigEndianWord (bigEndian 4 chunk.data.length)).toNat = chunk.data.length := by
  have hlength := chunk.length_data
  have hword : (UInt32.ofNat chunk.data.length).toNat = chunk.data.length := by
    rw [UInt32.toNat_ofNat', Nat.mod_eq_of_lt (by omega)]
  have hvalue := bigEndianWord_bigEndian (UInt32.ofNat chunk.data.length)
  rw [hword] at hvalue
  rw [hvalue, hword]

theorem walk_last (chunk : Chunk) (htype : chunk.type = literal "IEND") (image : Image)
    (trailing : Bytes) :
    Walk env (chunk.encode ++ trailing) image (some (chunk.data ++ chunk.crc ++ trailing))
      image := by
  have hbytes : chunk.encode ++ trailing =
      bigEndian 4 chunk.data.length ++ literal "IEND" ++ (chunk.data ++ chunk.crc ++ trailing) := by
    rw [Chunk.encode, htype]
    simp only [List.append_assoc]
  rw [hbytes]
  exact .finish (length_bigEndian 4 _)

theorem walk_chunk (chunk : Chunk)
    (htype : chunk.type ≠ literal "IHDR" ∧ chunk.type ≠ literal "IEND")
    (h : Walk env rest
      { image with
        zlibStream := image.zlibStream ++
          if chunk.type = literal "IDAT" then chunk.data else [] } file image') :
    Walk env (chunk.encode ++ rest) image file image' := by
  have hlength := bigEndianWord_length chunk
  by_cases hdata : chunk.type = literal "IDAT"
  · have hbytes : chunk.encode ++ rest =
        bigEndian 4 chunk.data.length ++ literal "IDAT" ++ (chunk.data ++ chunk.crc ++ rest) := by
      rw [Chunk.encode, hdata]
      simp only [List.append_assoc]
    rw [if_pos hdata] at h
    rw [hbytes]
    exact .data (length_bigEndian 4 _) hlength.symm chunk.length_crc h
  · have hbytes : chunk.encode ++ rest =
        bigEndian 4 chunk.data.length ++ chunk.type ++ (chunk.data ++ chunk.crc ++ rest) := by
      rw [Chunk.encode]
      simp only [List.append_assoc]
    have hdrop : (chunk.data ++ chunk.crc ++ rest).drop (chunk.data.length + 4) = rest :=
      List.drop_left' (by rw [List.length_append, chunk.length_crc])
    have hunknown : chunk.type ∉ knownTypes := by simp [knownTypes, htype, hdata]
    have hsize : chunk.data.length + 4 < 2 ^ 32 := by
      have hlt := chunk.length_data
      omega
    rw [if_neg hdata, List.append_nil] at h
    rw [hbytes]
    exact .skip (length_bigEndian 4 _) chunk.length_type hunknown (by rwa [hlength])
      (by rwa [hlength, hdrop])

theorem walk_chunks (chunks : List Chunk)
    (htypes : ∀ chunk ∈ chunks, chunk.type ≠ literal "IHDR" ∧ chunk.type ≠ literal "IEND")
    (h : Walk env rest
      { image with
        zlibStream := image.zlibStream ++
          (chunks.filter (·.type = literal "IDAT")).flatMap (·.data) } file image') :
    Walk env (chunks.flatMap Chunk.encode ++ rest) image file image' := by
  induction chunks generalizing image with
  | nil => simpa using h
  | cons chunk chunks ih =>
      rw [List.flatMap_cons, List.append_assoc]
      apply walk_chunk chunk (htypes chunk List.mem_cons_self)
      apply ih fun other hmem => htypes other (List.mem_cons_of_mem _ hmem)
      by_cases hdata : chunk.type = literal "IDAT"
      · rw [List.filter_cons_of_pos (by simpa using hdata), List.flatMap_cons] at h
        rw [if_pos hdata, List.append_assoc]
        exact h
      · rw [List.filter_cons_of_neg (by simpa using hdata)] at h
        rw [if_neg hdata, List.append_nil]
        exact h

theorem walk_encode (sequence : ChunkSequence) (trailing : Bytes) :
    Walk env (sequence.encode ++ trailing) Image.empty
      (some (sequence.last.data ++ sequence.last.crc ++ trailing))
      { Image.empty with
        width := sequence.width
        height := sequence.height
        channels := sequence.channels
        zlibStream := sequence.zlibStream } := by
  have hbytes : sequence.encode ++ trailing =
      bigEndian 4 sequence.header.data.length ++ literal "IHDR" ++
        (bigEndian 4 sequence.width.toNat ++ bigEndian 4 sequence.height.toNat ++
          [8, sequence.colorType] ++
          (sequence.methods ++ sequence.header.crc ++
            (sequence.chunks.flatMap Chunk.encode ++ (sequence.last.encode ++ trailing)))) := by
    rw [ChunkSequence.encode, Chunk.encode, sequence.type_header]
    simp only [sequence.data_header, List.append_assoc]
  rw [hbytes]
  apply Walk.header (length_bigEndian 4 _) (length_bigEndian 4 _) (length_bigEndian 4 _)
    sequence.length_methods sequence.header.length_crc sequence.color
  rw [bigEndianWord_bigEndian, bigEndianWord_bigEndian]
  exact walk_chunks sequence.chunks sequence.type_chunks
    (walk_last sequence.last sequence.type_last _ trailing)

/-- `processChunks` leaves width, height and channels as the header has them, collects the
contents of the data chunks and nothing else, and reads up to the type of the last chunk. -/
theorem processChunks_encode (env : Environment) (sequence : ChunkSequence) (trailing : Bytes) :
    (processChunks env (some (sequence.encode ++ trailing)) Image.empty).image.width =
        sequence.width ∧
      (processChunks env (some (sequence.encode ++ trailing)) Image.empty).image.height =
        sequence.height ∧
      (processChunks env (some (sequence.encode ++ trailing)) Image.empty).image.channels =
        sequence.channels ∧
      (processChunks env (some (sequence.encode ++ trailing)) Image.empty).image.zlibStream =
        sequence.zlibStream ∧
      (processChunks env (some (sequence.encode ++ trailing)) Image.empty).file =
        some (sequence.last.data ++ sequence.last.crc ++ trailing) := by
  obtain ⟨sizes, -, hwalk⟩ := walkChunks_of_walk (@walk_encode env sequence trailing)
  unfold processChunks
  rw [hwalk]
  dsimp only
  split_ifs <;> exact ⟨rfl, rfl, rfl, rfl, rfl⟩

/-- Two rows of two pixels, the first with the filter for the left, the other with Paeth's. -/
def squareRows : Bytes := [1, 10, 20, 30, 1, 2, 3, 4, 190, 80, 20, 55, 156, 78]

def squareStream : Bytes :=
  [0x78, 0x01, 1, 14, 0, 0xF1, 0xFF] ++ squareRows ++ [0x0B, 0xA7, 0x02, 0x8B]

/-- A file with the text "IEND" between the two halves of its stream. -/
def square : ChunkSequence :=
  let crc : Bytes := [0, 0, 0, 0]
  let header : Bytes := [0, 0, 0, 2, 0, 0, 0, 2, 8, 2, 0, 0, 0]
  { width := 2
    height := 2
    colorType := 2
    channels := 3
    methods := [0, 0, 0]
    header := ⟨literal "IHDR", header, crc, by decide, by decide, rfl⟩
    chunks :=
      [⟨literal "IDAT", squareStream.take 9, crc, by decide, by decide, rfl⟩,
        ⟨literal "tEXt", literal "IEND", crc, by decide, by decide, rfl⟩,
        ⟨literal "IDAT", squareStream.drop 9, crc, by decide, by decide, rfl⟩]
    last := ⟨literal "IEND", [], crc, by decide, by decide, rfl⟩
    color := .rgb
    length_methods := rfl
    type_header := rfl
    data_header := by decide
    type_chunks := by decide
    type_last := rfl }

def squareEnvironment : Environment :=
  { uncompress := fun source destLen =>
      if source = squareStream then (zOk, squareRows.take destLen) else (-3, [])
    length_uncompress := by
      intro source destLen
      split_ifs
      · exact List.length_take_le _ _
      · exact Nat.zero_le _
    allocates := fun _ => true
    lengthBytes := [0, 0, 0, 0]
    widthBytes := [0, 0, 0, 0]
    heightBytes := [0, 0, 0, 0] }

theorem processChunks_encode_square :
    (processChunks squareEnvironment (some (square.encode ++ [7])) Image.empty).image.zlibStream =
        squareStream ∧
      (processChunks squareEnvironment (some (square.encode ++ [7])) Image.empty).file =
        some [0, 0, 0, 0, 7] := by
  obtain ⟨-, -, -, hstream, hfile⟩ := processChunks_encode squareEnvironment square [7]
  exact ⟨hstream.trans (by decide), hfile⟩

end

end TChat.Parser
