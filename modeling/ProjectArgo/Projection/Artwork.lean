import ProjectArgo.Library.Bytes

/-!
# Artwork

A picture of the phone is taken if its own header says that it is not too large. The header of a
PNG picture stands at the start. That of a JPEG picture is looked for among the segments before the
picture data, whose lengths the phone gives.
-/
namespace ProjectArgo.Projection.Artwork

open Library.Bytes

def MAX_BYTES : ℕ := 1024 * 1024
def MAX_SIDE : ℕ := 2048

/-- The code would stop here with an index out of bounds. -/
inductive Panic
  | index
  deriving DecidableEq

def octet (data : List UInt8) (i : ℕ) : Except Panic UInt8 :=
  match data[i]? with
  | some octet => .ok octet
  | none => .error .index

/-- A slice of so many octets. -/
def octets (data : List UInt8) (first size : ℕ) : Except Panic (List UInt8) :=
  if first + size ≤ data.length then .ok (slice data first (first + size)) else .error .index

def number (data : List UInt8) (first size : ℕ) : Except Panic ℕ :=
  (octets data first size).map ofBigEndian

def PNG_SIGNATURE : List UInt8 := [0x89, 0x50, 0x4e, 0x47, 0x0d, 0x0a, 0x1a, 0x0a]
def IHDR : List UInt8 := [0x49, 0x48, 0x44, 0x52]
def JPEG_START : List UInt8 := [0xff, 0xd8]

/-- The markers of frame headers. -/
def isFrame (marker : UInt8) : Bool :=
  (0xc0 ≤ marker && marker ≤ 0xc3) || (0xc5 ≤ marker && marker ≤ 0xc7) ||
    (0xc9 ≤ marker && marker ≤ 0xcb) || (0xcd ≤ marker && marker ≤ 0xcf)

/-- Markers without a length. -/
def isStandalone (marker : UInt8) : Bool := marker == 0x01 || (0xd0 ≤ marker && marker ≤ 0xd7)

/-- The start of the picture data, and the end of the picture. -/
def isEnd (marker : UInt8) : Bool := marker == 0xda || marker == 0xd9

/-- The loop over the markers of a JPEG picture. -/
def walk (data : List UInt8) (i : ℕ) : Except Panic (Option (ℕ × ℕ)) :=
  if i + 4 ≤ data.length then
    match octet data i, octet data (i + 1) with
    | .ok first, .ok marker =>
      if first ≠ 0xff then .ok none
      else if marker = 0xff then walk data (i + 1)
      else if isEnd marker then .ok none
      else if isStandalone marker then walk data (i + 2)
      else
        match number data (i + 2) 2 with
        | .error panic => .error panic
        | .ok len =>
          if len < 2 ∨ data.length < i + 2 + len then .ok none
          else if isFrame marker ∧ 8 ≤ len then
            match number data (i + 2 + 5) 2, number data (i + 2 + 3) 2 with
            | .ok width, .ok height => .ok (some (width, height))
            | .error panic, _ => .error panic
            | _, .error panic => .error panic
          else walk data (i + 2 + len)
    | .error panic, _ => .error panic
    | _, .error panic => .error panic
  else .ok none
termination_by data.length - i
decreasing_by all_goals omega

def dimensions (data : List UInt8) : Except Panic (Option (ℕ × ℕ)) :=
  if PNG_SIGNATURE <+: data ∧ 33 ≤ data.length ∧ octets data 12 4 = .ok IHDR then
    match number data 16 4, number data 20 4 with
    | .ok width, .ok height => .ok (some (width, height))
    | .error panic, _ => .error panic
    | _, .error panic => .error panic
  else if JPEG_START <+: data then walk data 2
  else .ok none

def validate (data : List UInt8) : Except Panic (Except String Unit) :=
  if MAX_BYTES < data.length then .ok (.error "Artwork exceeds 1 MiB")
  else
    match dimensions data with
    | .error panic => .error panic
    | .ok (some (width, height)) =>
      if 0 < width ∧ 0 < height ∧ width ≤ MAX_SIDE ∧ height ≤ MAX_SIDE then .ok (.ok ())
      else .ok (.error "Artwork requires bounded PNG/JPEG dimensions")
    | .ok none => .ok (.error "Artwork requires bounded PNG/JPEG dimensions")

/-! ## What pictures look like -/

/-- What stands before the frame header of a JPEG picture: fill octets, markers alone, and segments
with their content. -/
inductive Part
  | fill
  | standalone (marker : UInt8)
  | segment (marker : UInt8) (content : List UInt8)
  deriving DecidableEq

def Part.encode : Part → List UInt8
  | .fill => [0xff]
  | .standalone marker => [0xff, marker]
  | .segment marker content => 0xff :: marker :: bigEndian 2 (content.length + 2) ++ content

/-- No picture data, no end, and no frame header. -/
def Part.Before : Part → Prop
  | .fill => True
  | .standalone marker => isStandalone marker
  | .segment marker content => content.length + 2 < 2 ^ 16 ∧ marker ≠ 0xff ∧ isEnd marker = false ∧
      isStandalone marker = false ∧ ¬(isFrame marker ∧ 8 ≤ content.length + 2)

/-- A complete frame header stands in the picture with nothing but such parts before it, and these
are its width and height. -/
def FrameHeader (data : List UInt8) (width height : ℕ) : Prop :=
  ∃ (parts : List Part) (marker precision : UInt8) (content rest : List UInt8),
    (∀ part ∈ parts, part.Before) ∧ isFrame marker ∧
    content.length + 7 < 2 ^ 16 ∧ 1 ≤ content.length ∧ width < 2 ^ 16 ∧ height < 2 ^ 16 ∧
    data = parts.flatMap Part.encode ++ (0xff :: marker :: bigEndian 2 (content.length + 7) ++
      precision :: bigEndian 2 height ++ bigEndian 2 width ++ content) ++ rest

def JpegHeader (data : List UInt8) (width height : ℕ) : Prop :=
  ∃ segments, data = JPEG_START ++ segments ∧ FrameHeader segments width height

/-- The first chunk of a PNG picture is its header. -/
def PngHeader (data : List UInt8) (width height : ℕ) : Prop :=
  ∃ length rest, length.length = 4 ∧ width < 2 ^ 32 ∧ height < 2 ^ 32 ∧
    data = PNG_SIGNATURE ++ length ++ IHDR ++ bigEndian 4 width ++ bigEndian 4 height ++ rest

/-! ## The walk -/

theorem octet_ne_error {data : List UInt8} {i : ℕ} {panic : Panic} (h : i < data.length) :
    octet data i ≠ .error panic := by
  rw [octet, List.getElem?_eq_getElem h]
  nofun

theorem octets_of_le {data : List UInt8} {first size : ℕ} (h : first + size ≤ data.length) :
    octets data first size = .ok (slice data first (first + size)) := if_pos h

theorem number_of_le {data : List UInt8} {first size : ℕ} (h : first + size ≤ data.length) :
    number data first size = .ok (ofBigEndian (slice data first (first + size))) := by
  rw [number, octets_of_le h]
  rfl

theorem number_ne_error {data : List UInt8} {first size : ℕ} {panic : Panic}
    (h : first + size ≤ data.length) : number data first size ≠ .error panic := by
  rw [number_of_le h]
  nofun

theorem drop_of_octet {data : List UInt8} {i : ℕ} {value : UInt8} (h : octet data i = .ok value) :
    data.drop i = value :: data.drop (i + 1) := by
  unfold octet at h
  split at h
  · rename_i found hfound
    cases h
    obtain ⟨hlt, rfl⟩ := List.getElem?_eq_some_iff.mp hfound
    exact List.drop_eq_getElem_cons hlt
  · cases h

/-- The octets of a number, as it stands in the picture. -/
theorem take_of_number {data : List UInt8} {first size value : ℕ}
    (h : number data first size = .ok value) :
    (data.drop first).take size = bigEndian size value ∧ value < 256 ^ size := by
  unfold number octets at h
  split at h
  · rename_i hin
    cases h
    have hlength : (slice data first (first + size)).length = size := by
      rw [length_slice]
      omega
    have hvalue := bigEndian_ofBigEndian (slice data first (first + size)) 0
    rw [hlength, Nat.zero_mul, Nat.zero_add] at hvalue
    have hless := ofBigEndian_lt (slice data first (first + size))
    rw [hlength] at hless
    refine ⟨?_, hless⟩
    rw [hvalue, slice, Nat.add_sub_cancel_left]
  · cases h

/-- One more part may stand before. -/
theorem FrameHeader.before {data : List UInt8} {width height : ℕ}
    (header : FrameHeader data width height) (part : Part) (hpart : part.Before) :
    FrameHeader (part.encode ++ data) width height := by
  obtain ⟨parts, marker, precision, content, rest, hbefore, hframe, hless, hone, hwidth, hheight,
    rfl⟩ := header
  refine ⟨part :: parts, marker, precision, content, rest, ?_, hframe, hless, hone, hwidth, hheight,
    ?_⟩
  · intro other hother
    rcases List.mem_cons.mp hother with rfl | hother
    · exact hpart
    · exact hbefore other hother
  · simp [List.flatMap_cons]

/-- A segment with its length, and what follows it. -/
theorem drop_segment {data : List UInt8} {j len : ℕ} (hnumber : number data j 2 = .ok len)
    (hmin : 2 ≤ len) (hin : j + len ≤ data.length) :
    ∃ content, content.length + 2 = len ∧
      data.drop j = bigEndian 2 len ++ content ++ data.drop (j + len) := by
  refine ⟨(data.drop (j + 2)).take (len - 2), ?_, ?_⟩
  · rw [List.length_take, List.length_drop]
    omega
  · rw [← (take_of_number hnumber).1]
    have hrest : data.drop (j + 2) = (data.drop (j + 2)).take (len - 2) ++ data.drop (j + len) := by
      conv_lhs => rw [← List.take_append_drop (len - 2) (data.drop (j + 2))]
      rw [List.drop_drop, Nat.add_assoc, Nat.add_sub_cancel' hmin]
    rw [List.append_assoc, ← hrest, ← List.drop_drop, List.take_append_drop]

/-- No read of the walk is out of bounds, and what it finds is a frame header. -/
theorem walk_spec (data : List UInt8) (i : ℕ) : ∃ found, walk data i = .ok found ∧
    ∀ width height, found = some (width, height) → FrameHeader (data.drop i) width height := by
  fun_induction walk data i with
  | case1 => exact ⟨none, rfl, nofun⟩
  | case2 i h first hfirst hff hmarker ih =>
    obtain ⟨found, hok, hfound⟩ := ih
    refine ⟨found, hok, fun width height hsome => ?_⟩
    rw [drop_of_octet hfirst, not_not.mp hff]
    exact (hfound width height hsome).before .fill trivial
  | case3 => exact ⟨none, rfl, nofun⟩
  | case4 i h first marker hmarker hfirst hff hfill hend halone ih =>
    obtain ⟨found, hok, hfound⟩ := ih
    refine ⟨found, hok, fun width height hsome => ?_⟩
    rw [drop_of_octet hfirst, drop_of_octet hmarker, not_not.mp hff]
    exact (hfound width height hsome).before (.standalone marker) halone
  | case6 => exact ⟨none, rfl, nofun⟩
  | case7 i h first marker hmarker hfirst hff hfill hend halone len hlen hin hframe width height
      hheight hwidth =>
    refine ⟨_, rfl, fun width' height' hsome => ?_⟩
    cases hsome
    push Not at hin
    obtain ⟨content, hcontent, hdrop⟩ := drop_segment hlen hin.1 hin.2
    match content, hcontent with
    | precision :: h1 :: h2 :: w1 :: w2 :: last :: more, hcontent =>
      have hdrop3 : data.drop (i + 2 + 3) =
          h1 :: h2 :: w1 :: w2 :: last :: more ++ data.drop (i + 2 + len) := by
        rw [← List.drop_drop, hdrop, bigEndian_two]
        rfl
      have hdrop5 : data.drop (i + 2 + 5) =
          w1 :: w2 :: last :: more ++ data.drop (i + 2 + len) := by
        rw [← List.drop_drop, hdrop, bigEndian_two]
        rfl
      obtain ⟨htake, hheight⟩ := take_of_number hheight
      obtain ⟨htake', hwidth⟩ := take_of_number hwidth
      rw [hdrop3] at htake
      rw [hdrop5] at htake'
      have hh : bigEndian 2 height = [h1, h2] := htake.symm
      have hw : bigEndian 2 width = [w1, w2] := htake'.symm
      have hless : len < 256 ^ 2 := (take_of_number hlen).2
      simp only [List.length_cons] at hcontent
      refine ⟨[], marker, precision, last :: more, data.drop (i + 2 + len), by simp, hframe.1, ?_,
        by simp, by omega, by omega, ?_⟩
      · simp only [List.length_cons]
        omega
      · have hlast : (last :: more).length + 7 = len := by
          simp only [List.length_cons]
          omega
        rw [hlast, hh, hw, drop_of_octet hfirst, drop_of_octet hmarker, not_not.mp hff, hdrop]
        simp
    | [], hcontent | [_], hcontent | [_, _], hcontent | [_, _, _], hcontent
    | [_, _, _, _], hcontent | [_, _, _, _, _], hcontent =>
      simp only [List.length_nil, List.length_cons] at hcontent
      omega
  | case10 i h first marker hmarker hfirst hff hfill hend halone len hlen hin hframe ih =>
    obtain ⟨found, hok, hfound⟩ := ih
    refine ⟨found, hok, fun width height hsome => ?_⟩
    push Not at hin
    obtain ⟨content, rfl, hdrop⟩ := drop_segment hlen hin.1 hin.2
    rw [drop_of_octet hfirst, drop_of_octet hmarker, not_not.mp hff, hdrop]
    have hless : content.length + 2 < 256 ^ 2 := (take_of_number hlen).2
    have hbefore : (Part.segment marker content).Before :=
      ⟨by omega, hfill, by simpa using hend, by simpa using halone, hframe⟩
    exact (hfound width height hsome).before (.segment marker content) hbefore
  | case5 i h first marker hmarker hfirst hff hfill hend halone panic hpanic =>
    exact absurd hpanic (number_ne_error (by omega))
  | case8 i h first marker hmarker hfirst hff hfill hend halone len hlen hin hframe panic hpanic =>
    exact absurd hpanic (number_ne_error (by omega))
  | case9 i h first marker hmarker hfirst hff hfill hend halone len hlen hin hframe panic hpanic =>
    exact absurd hpanic (number_ne_error (by omega))
  | case11 i h panic hpanic => exact absurd hpanic (octet_ne_error (by omega))
  | case12 i h panic hpanic => exact absurd hpanic (octet_ne_error (by omega))
  | case13 => exact ⟨none, rfl, nofun⟩

/-! ## What is accepted -/

/-- The header of a picture, of the kind that its first octets say. -/
def OwnHeader (data : List UInt8) (width height : ℕ) : Prop :=
  if PNG_SIGNATURE <+: data then PngHeader data width height else JpegHeader data width height

theorem png_spec {data : List UInt8} (hsignature : PNG_SIGNATURE <+: data)
    (hlength : 33 ≤ data.length) (hchunk : octets data 12 4 = .ok IHDR) :
    ∃ width height, number data 16 4 = .ok width ∧ number data 20 4 = .ok height ∧
      PngHeader data width height := by
  have hwidth := number_of_le (show 16 + 4 ≤ data.length by omega)
  have hheight := number_of_le (show 20 + 4 ≤ data.length by omega)
  refine ⟨_, _, hwidth, hheight, slice data 8 12, data.drop 24, ?_,
    (take_of_number hwidth).2, (take_of_number hheight).2, ?_⟩
  · rw [length_slice]
    omega
  · have hstart : data.take 8 = PNG_SIGNATURE := by
      obtain ⟨rest, rfl⟩ := hsignature
      rfl
    have hname : slice data 12 16 = IHDR := by
      rw [octets_of_le (by omega)] at hchunk
      exact Except.ok.inj hchunk
    have hwide : bigEndian 4 (ofBigEndian (slice data 16 20)) = slice data 16 20 := by
      rw [← (take_of_number hwidth).1, slice]
    have hhigh : bigEndian 4 (ofBigEndian (slice data 20 24)) = slice data 20 24 := by
      rw [← (take_of_number hheight).1, slice]
    rw [hwide, hhigh, ← hstart, ← hname, ← slice_zero, slice_append_slice _ (by omega) (by omega),
      slice_append_slice _ (by omega) (by omega), slice_append_slice _ (by omega) (by omega),
      slice_append_slice _ (by omega) (by omega), slice_zero, List.take_append_drop]

theorem dimensions_spec (data : List UInt8) : ∃ found, dimensions data = .ok found ∧
    ∀ width height, found = some (width, height) → OwnHeader data width height := by
  unfold dimensions
  split
  · rename_i hpng
    obtain ⟨width, height, hwidth, hheight, header⟩ := png_spec hpng.1 hpng.2.1 hpng.2.2
    rw [hwidth, hheight]
    refine ⟨_, rfl, fun width' height' hsome => ?_⟩
    cases hsome
    rw [OwnHeader, if_pos hpng.1]
    exact header
  · split
    · rename_i hpng hjpeg
      obtain ⟨found, hok, hfound⟩ := walk_spec data 2
      refine ⟨found, hok, fun width height hsome => ?_⟩
      obtain ⟨segments, rfl⟩ := hjpeg
      rw [OwnHeader, if_neg]
      · exact ⟨segments, rfl, hfound width height hsome⟩
      · rintro ⟨rest, hrest⟩
        simp [PNG_SIGNATURE, JPEG_START] at hrest
    · exact ⟨none, rfl, nofun⟩

/-- The check of a picture comes to an end and reads no octet outside of it, whatever the picture
is. One that is accepted is a PNG picture or a JPEG picture with its own header, in the JPEG case
before any picture data, and the width and height are those of the header and within bounds. -/
theorem validate_sound (data : List UInt8) :
    (∃ result, validate data = .ok result) ∧
    (validate data = .ok (.ok ()) → ∃ width height, dimensions data = .ok (some (width, height)) ∧
      1 ≤ width ∧ width ≤ MAX_SIDE ∧ 1 ≤ height ∧ height ≤ MAX_SIDE ∧
      OwnHeader data width height) := by
  obtain ⟨found, hok, hfound⟩ := dimensions_spec data
  unfold validate
  rw [hok]
  split
  · exact ⟨⟨_, rfl⟩, nofun⟩
  · cases found with
    | none => exact ⟨⟨_, rfl⟩, nofun⟩
    | some size =>
      obtain ⟨width, height⟩ := size
      dsimp only
      split
      · rename_i hsize
        exact ⟨⟨_, rfl⟩, fun _ => ⟨width, height, rfl, hsize.1, hsize.2.2.1, hsize.2.1, hsize.2.2.2,
          hfound width height rfl⟩⟩
      · exact ⟨⟨_, rfl⟩, nofun⟩

/-- A marker alone, a segment and a fill octet before the frame header; and no frame header before
the picture data. -/
example : validate (JPEG_START ++ [0xff, 0xd0, 0xff, 0xe0, 0, 3, 7, 0xff, 0xff, 0xc0, 0, 11, 8, 0, 2,
      0, 3, 1, 1, 17, 0]) = .ok (.ok ()) ∧
    validate (JPEG_START ++ [0xff, 0xda, 0, 3, 7, 0xff, 0xc0, 0, 11, 8, 0, 2, 0, 3, 1, 1, 17, 0]) =
      .ok (.error "Artwork requires bounded PNG/JPEG dimensions") := by
  decide +kernel

end ProjectArgo.Projection.Artwork
