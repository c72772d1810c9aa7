import ProjectArgo.Library.Bytes
import ProjectArgo.Projection.DaemonState
import ProjectArgo.Projection.Metadata

/-!
# Updates of the published metadata

An update is merged into one record, and the revision advances exactly when the record
changed. What a listener with the latest revision holds is therefore what is published.
A picture is written to a file of its own, which may fail and be tried again.
-/
namespace ProjectArgo.Projection.Metadata

open Library.Bytes

/-! ## Pictures -/

namespace Artwork

/-- `artwork::MAX_SIDE`. -/
def maxSide : ℕ := 2048

structure Image where
  path : String
  data : List UInt8
  deriving DecidableEq

def Image.isOf (image : Image) (data : List UInt8) : Bool := image.data = data

/-- The segments of a JPEG picture from offset `i` on: width and height of its frame. -/
def jpegFrom (data : List UInt8) (i : ℕ) : Option (ℕ × ℕ) :=
  if data.length < i + 4 ∨ data.getD i 0 ≠ 0xff then none
  else
    let marker := data.getD (i + 1) 0
    if marker = 0xff then jpegFrom data (i + 1)
    else if marker = 0xda ∨ marker = 0xd9 then none
    else if marker = 0x01 ∨ (0xd0 ≤ marker ∧ marker ≤ 0xd7) then jpegFrom data (i + 2)
    else
      let length := ofBigEndian (slice data (i + 2) (i + 4))
      if length < 2 ∨ data.length < i + 2 + length then none
      else if ((0xc0 ≤ marker ∧ marker ≤ 0xc3) ∨ (0xc5 ≤ marker ∧ marker ≤ 0xc7) ∨
          (0xc9 ≤ marker ∧ marker ≤ 0xcb) ∨ (0xcd ≤ marker ∧ marker ≤ 0xcf)) ∧ 8 ≤ length then
        some (ofBigEndian (slice data (i + 7) (i + 9)), ofBigEndian (slice data (i + 5) (i + 7)))
      else jpegFrom data (i + 2 + length)
termination_by data.length - i

def pngSignature : List UInt8 := [0x89, 0x50, 0x4e, 0x47, 0x0d, 0x0a, 0x1a, 0x0a]

def dimensions (data : List UInt8) : Option (ℕ × ℕ) :=
  if pngSignature.isPrefixOf data ∧ 33 ≤ data.length ∧
      slice data 12 16 = [0x49, 0x48, 0x44, 0x52] then
    some (ofBigEndian (slice data 16 20), ofBigEndian (slice data 20 24))
  else if [0xff, 0xd8].isPrefixOf data then jpegFrom data 2
  else none

def validate (data : List UInt8) : Except String Unit :=
  if artworkMaxBytes < data.length then .error "Artwork exceeds 1 MiB"
  else
    match dimensions data with
    | some (width, height) =>
      if 0 < width ∧ 0 < height ∧ width ≤ maxSide ∧ height ≤ maxSide then .ok ()
      else .error "Artwork requires bounded PNG/JPEG dimensions"
    | none => .error "Artwork requires bounded PNG/JPEG dimensions"

/-- `artwork::store`. `file` is the path under which the picture could be written. -/
def store (file : Option String) (data : List UInt8) : Option Image :=
  match validate data with
  | .error _ => none
  | .ok () => file.map fun path => ⟨path, data⟩

end Artwork

open Artwork

/-! ## The record and its updates -/

/-- `metadata::Metadata`. -/
structure Record where
  mediaReceived : Bool := false
  title : Option String := none
  artist : Option String := none
  album : Option String := none
  artwork : Option Image := none
  playback : ℕ := 0
  application : Option String := none
  positionMs : Option ℕ := none
  durationMs : Option ℕ := none
  deviceName : Option String := none
  manufacturer : Option String := none
  model : Option String := none
  battery : Option ℕ := none
  critical : Option Bool := none
  deriving DecidableEq

/-- What an update finds outside: where a picture can be written, and the time. -/
structure World where
  file : Option String
  now : ℕ
  deriving DecidableEq

/-- The picture of a track message: the one that is there if it has the same octets. -/
def keptArtwork (world : World) (old : Option Image) (artwork : Option (List UInt8)) :
    Option Image :=
  artwork.bind fun bytes =>
    match old with
    | some image => if image.isOf bytes then some image else store world.file bytes
    | none => store world.file bytes

/-- A track message replaces all descriptive fields. Artwork-only refreshes with identical
text do not reset the position. -/
def mergeTrack (world : World) (title artist album : Option String)
    (artwork : Option (List UInt8)) (durationMs : Option ℕ) (d : Record) : Record :=
  let d := if (d.title, d.artist, d.album) ≠ (title, artist, album) then
      { d with positionMs := none, durationMs := none } else d
  { d with
    title := title
    artist := artist
    album := album
    durationMs := durationMs
    artwork := keptArtwork world d.artwork artwork
    mediaReceived := true }

/-- A changed application cannot retain the old application's track. -/
def switchApplication (application : String) (d : Record) : Record :=
  let d := if d.application.any (· ≠ application) then
      { d with
        title := none
        artist := none
        album := none
        artwork := none
        positionMs := none
        durationMs := none }
    else d
  { d with application := some application }

def mergePlayback (state : Option ℕ) (application : Option String) (positionMs : Option ℕ)
    (d : Record) : Record :=
  let d := match application with
    | some application => switchApplication application d
    | none => d
  { d with
    playback := state.getD d.playback
    positionMs := positionMs.or d.positionMs
    mediaReceived := true }

def merge (world : World) (update : Update) (d : Record) : Record :=
  match update with
  | .track title artist album artwork durationMs =>
    mergeTrack world title artist album artwork durationMs d
  | .playback state application positionMs => mergePlayback state application positionMs d
  | .phone name manufacturer => { d with deviceName := name, manufacturer := manufacturer }
  | .battery level critical =>
    { d with battery := level.or d.battery, critical := critical.or d.critical }

/-- `metadata::Snapshot`. -/
structure Snapshot where
  data : Record := {}
  revision : ℕ := 0
  updatedAtMs : ℕ := 0
  lastDiagnosticMs : ℕ := 0
  deriving DecidableEq

/-- `Snapshot::apply`. A diagnostic is written at most every three seconds. -/
def Snapshot.apply (world : World) (update : Update) (snapshot : Snapshot) : Snapshot × Bool :=
  let data := merge world update snapshot.data
  if data = snapshot.data then (snapshot, false)
  else
    ({ data := data
       revision := nextRevision snapshot.revision
       updatedAtMs := world.now
       lastDiagnosticMs := if 3000 ≤ world.now - snapshot.lastDiagnosticMs then world.now
         else snapshot.lastDiagnosticMs }, true)

/-- The published snapshot with its metadata. -/
structure ProjectionRuntimeSnapshot extends RuntimeSnapshot where
  metadata : Snapshot := {}

/-- `ProjectionRuntimeSnapshot::update_metadata`. -/
def ProjectionRuntimeSnapshot.updateMetadata (id : String) (world : World) (update : Update)
    (snapshot : ProjectionRuntimeSnapshot) : ProjectionRuntimeSnapshot × Bool :=
  if snapshot.session.any fun session => session.id = id ∧ session.state ≠ .failed then
    let (metadata, changed) := snapshot.metadata.apply world update
    ({ snapshot with metadata := metadata }, changed)
  else (snapshot, false)

/-! ## One update -/

theorem Artwork.isOf_store {file : Option String} {data : List UInt8} {image : Image}
    (h : store file data = some image) : image.isOf data = true := by
  unfold store at h
  split at h
  · cases h
  · obtain ⟨path, -, rfl⟩ := Option.map_eq_some_iff.mp h
    exact decide_eq_true rfl

/-- A picture that was kept or stored is kept from then on. -/
theorem keptArtwork_some {world later : World} {old : Option Image} {artwork : Option (List UInt8)}
    {image : Image} (h : keptArtwork world old artwork = some image) :
    keptArtwork later (some image) artwork = some image := by
  cases artwork with
  | none => cases h
  | some bytes =>
    have hsame : image.isOf bytes = true := by
      simp only [keptArtwork, Option.bind_some] at h
      split at h
      · split_ifs at h with hold
        · cases h
          exact hold
        · exact isOf_store h
      · exact isOf_store h
    simp only [keptArtwork, Option.bind_some]
    rw [if_pos hsame]

/-- The record has no picture for the track, and this time one can be stored. -/
def Retried (world : World) (update : Update) (d : Record) : Prop :=
  match update with
  | .track _ _ _ (some bytes) _ => d.artwork = none ∧ (store world.file bytes).isSome
  | _ => False

instance (world : World) (update : Update) (d : Record) : Decidable (Retried world update d) :=
  match update with
  | .track _ _ _ (some _) _ => inferInstanceAs (Decidable (_ ∧ _))
  | .track _ _ _ none _ => isFalse id
  | .playback .. => isFalse id
  | .phone .. => isFalse id
  | .battery .. => isFalse id

theorem mergeTrack_twice (world later : World) (title artist album : Option String)
    (artwork : Option (List UInt8)) (durationMs : Option ℕ) (d : Record) :
    let merged := mergeTrack world title artist album artwork durationMs d
    mergeTrack later title artist album artwork durationMs merged =
      { merged with artwork := keptArtwork later merged.artwork artwork } := by
  intro merged
  have htexts : ¬(merged.title, merged.artist, merged.album) ≠ (title, artist, album) :=
    not_not.mpr rfl
  conv_lhs => rw [mergeTrack, if_neg htexts]
  rfl

theorem switchApplication_of_eq {application : String} {d : Record}
    (h : d.application = some application) : switchApplication application d = d := by
  rw [switchApplication, h]
  simp only [Option.any_some, ne_eq, not_true_eq_false, decide_false, Bool.false_eq_true, if_false]
  rw [← h]

theorem mergePlayback_twice (state : Option ℕ) (application : Option String)
    (positionMs : Option ℕ) (d : Record) :
    mergePlayback state application positionMs (mergePlayback state application positionMs d) =
      mergePlayback state application positionMs d := by
  generalize hmerged : mergePlayback state application positionMs d = merged
  have hstate : state.getD merged.playback = merged.playback := by
    rw [← hmerged]
    cases state <;> rfl
  have hposition : positionMs.or merged.positionMs = merged.positionMs := by
    rw [← hmerged]
    cases positionMs <;> rfl
  have hreceived : merged.mediaReceived = true := by
    rw [← hmerged]
    rfl
  cases application with
  | none =>
    rw [mergePlayback, hstate, hposition, ← hreceived]
  | some application =>
    have happlication : merged.application = some application := by
      rw [← hmerged]
      rfl
    rw [mergePlayback, switchApplication_of_eq happlication, hstate, hposition, ← hreceived]

/-- The same update once more changes something only if it brings a picture that could not be
stored before. -/
theorem merge_twice (world later : World) (update : Update) (d : Record) :
    merge later update (merge world update d) = merge world update d ↔
      ¬Retried later update (merge world update d) := by
  cases update with
  | track title artist album artwork durationMs =>
    have htwice := mergeTrack_twice world later title artist album artwork durationMs d
    simp only [merge, htwice]
    generalize hmerged : mergeTrack world title artist album artwork durationMs d = merged
    have hartwork : ∃ old, merged.artwork = keptArtwork world old artwork := by
      rw [← hmerged]
      exact ⟨_, rfl⟩
    obtain ⟨old, hold⟩ := hartwork
    have hrecord : { merged with artwork := keptArtwork later merged.artwork artwork } = merged ↔
        keptArtwork later merged.artwork artwork = merged.artwork := by
      constructor
      · intro h
        exact congrArg Record.artwork h
      · intro h
        rw [h]
    rw [hrecord]
    cases hpicture : merged.artwork with
    | some image =>
      rw [hpicture] at hold
      have hkept := @keptArtwork_some _ later _ _ _ hold.symm
      cases artwork with
      | none => cases hold
      | some bytes => simp [Retried, hkept, hpicture]
    | none =>
      cases artwork with
      | none => simp [Retried, keptArtwork]
      | some bytes => simp [Retried, keptArtwork, hpicture]
  | playback state application positionMs =>
    exact iff_of_true (mergePlayback_twice state application positionMs d) id
  | phone name manufacturer => exact iff_of_true rfl id
  | battery level critical =>
    refine iff_of_true ?_ id
    simp only [merge]
    cases level <;> cases critical <;> rfl

theorem Snapshot.data_apply (world : World) (update : Update) (snapshot : Snapshot) :
    (snapshot.apply world update).1.data = merge world update snapshot.data := by
  unfold Snapshot.apply
  dsimp only
  split
  · rename_i hsame
    exact hsame.symm
  · rfl

/-- Nothing happens exactly if the record stays. -/
theorem Snapshot.apply_eq_self_iff (world : World) (update : Update) (snapshot : Snapshot) :
    snapshot.apply world update = (snapshot, false) ↔
      merge world update snapshot.data = snapshot.data := by
  unfold Snapshot.apply
  dsimp only
  split
  · rename_i hsame
    exact iff_of_true rfl hsame
  · rename_i hchanged
    refine iff_of_false (fun h => ?_) hchanged
    cases congrArg Prod.snd h

theorem Snapshot.revision_apply (world : World) (update : Update) (snapshot : Snapshot) :
    (snapshot.apply world update).1.revision =
      if (snapshot.apply world update).1.data = snapshot.data then snapshot.revision
      else nextRevision snapshot.revision := by
  rw [Snapshot.data_apply]
  unfold Snapshot.apply
  dsimp only
  split <;> rfl

/-- The revision advances exactly with the record, as long as it can. -/
theorem Snapshot.revision_lt_iff (world : World) (update : Update) {snapshot : Snapshot}
    (h : snapshot.revision < 2 ^ 32 - 1) :
    snapshot.revision < (snapshot.apply world update).1.revision ↔
      (snapshot.apply world update).1.data ≠ snapshot.data := by
  rw [Snapshot.revision_apply, nextRevision]
  split_ifs with hsame
  · exact iff_of_false (Nat.lt_irrefl _) (not_not.mpr hsame)
  · exact iff_of_true (by omega) hsame

def Update.positionMs : Update → Option ℕ
  | .playback _ _ positionMs => positionMs
  | _ => none

/-- Nothing is left of a track but the position that the update sets. -/
def Cleared (update : Update) (d : Record) : Prop :=
  d.title = none ∧ d.artist = none ∧ d.album = none ∧ d.artwork = none ∧ d.durationMs = none ∧
    d.positionMs = update.positionMs

theorem switchApplication_of_ne {application old : String} {d : Record}
    (h : d.application = some old) (hne : old ≠ application) :
    switchApplication application d =
      { d with
        title := none
        artist := none
        album := none
        artwork := none
        positionMs := none
        durationMs := none
        application := some application } := by
  rw [switchApplication, h]
  simp only [Option.any_some, decide_eq_true hne, if_true]

/-- Only a playback message changes the application, and then it clears the track. -/
theorem merge_cleared (world : World) (update : Update) {d : Record} {old : String}
    (hold : d.application = some old) (hchanged : (merge world update d).application ≠ some old) :
    Cleared update (merge world update d) := by
  cases update with
  | track title artist album artwork durationMs =>
    refine absurd ?_ hchanged
    rw [← hold]
    simp only [merge, mergeTrack]
    split_ifs <;> rfl
  | playback state application positionMs =>
    cases application with
    | none => exact absurd hold hchanged
    | some application =>
      have hne : old ≠ application := by
        rintro rfl
        exact hchanged rfl
      simp only [merge, mergePlayback, switchApplication_of_ne hold hne]
      exact ⟨rfl, rfl, rfl, rfl, rfl, Option.or_none⟩
  | phone name manufacturer => exact absurd hold hchanged
  | battery level critical => exact absurd hold hchanged

theorem ProjectionRuntimeSnapshot.updateMetadata_other {id : String}
    {snapshot : ProjectionRuntimeSnapshot}
    (h : ∀ session ∈ snapshot.session, session.id ≠ id ∨ session.state = .failed) (world : World)
    (update : Update) : snapshot.updateMetadata id world update = (snapshot, false) := by
  unfold ProjectionRuntimeSnapshot.updateMetadata
  rw [if_neg]
  rw [Option.any_eq_true]
  rintro ⟨session, hsession, hcurrent⟩
  obtain ⟨hid, hstate⟩ := of_decide_eq_true hcurrent
  exact (h session hsession).elim (fun hne => hne hid) hstate

/-! ## What listeners see -/

def Snapshot.applyAll (snapshot : Snapshot) (updates : List (World × Update)) : Snapshot :=
  updates.foldl (fun snapshot update => (snapshot.apply update.1 update.2).1) snapshot

theorem Snapshot.revision_le_apply (world : World) (update : Update) {snapshot : Snapshot}
    (h : snapshot.revision ≤ 2 ^ 32 - 1) :
    snapshot.revision ≤ (snapshot.apply world update).1.revision ∧
      (snapshot.apply world update).1.revision ≤ 2 ^ 32 - 1 := by
  rw [Snapshot.revision_apply, nextRevision]
  split_ifs <;> omega

/-- The revision never goes back, and below its limit two snapshots with the same revision are
the same: a listener that drops what bears no later revision misses nothing. -/
theorem Snapshot.applyAll_revision (updates : List (World × Update)) {snapshot : Snapshot}
    (h : snapshot.revision ≤ 2 ^ 32 - 1) :
    snapshot.revision ≤ (snapshot.applyAll updates).revision ∧
      (snapshot.applyAll updates).revision ≤ 2 ^ 32 - 1 ∧
      ((snapshot.applyAll updates).revision < 2 ^ 32 - 1 →
        (snapshot.applyAll updates).revision = snapshot.revision →
          snapshot.applyAll updates = snapshot) := by
  induction updates generalizing snapshot with
  | nil => exact ⟨le_rfl, h, fun _ _ => rfl⟩
  | cons update updates ih =>
    obtain ⟨hle, hmax⟩ := snapshot.revision_le_apply update.1 update.2 h
    obtain ⟨hlater, hbound, hsame⟩ := ih hmax
    refine ⟨hle.trans hlater, hbound, ?_⟩
    intro hroom heq
    change (Snapshot.applyAll (snapshot.apply update.1 update.2).1 updates).revision = _ at heq
    have hstill : (snapshot.apply update.1 update.2).1.revision = snapshot.revision :=
      le_antisymm (heq ▸ hlater) hle
    have hkept : (snapshot.apply update.1 update.2).1.data = snapshot.data := by
      by_contra hchanged
      have hlt := (Snapshot.revision_lt_iff update.1 update.2
        (hstill ▸ lt_of_le_of_lt hlater hroom)).mpr hchanged
      omega
    have hself : snapshot.apply update.1 update.2 = (snapshot, false) := by
      rw [Snapshot.apply_eq_self_iff, ← Snapshot.data_apply, hkept]
    have htail := hsame hroom (heq.trans hstill.symm)
    rw [hself] at htail
    change Snapshot.applyAll (snapshot.apply update.1 update.2).1 updates = snapshot
    rw [hself, htail]

/-! ## The contract of updates -/

/-- An update repeated changes nothing unless it brings a picture that could not be stored; the
revision advances exactly with the record; another application clears the track; and what is
for another session or a failed one is dropped. -/
theorem updates_contract :
    (∀ (world later : World) (update : Update) (snapshot : Snapshot),
      (snapshot.apply world update).1.apply later update =
          ((snapshot.apply world update).1, false) ↔
        ¬Retried later update (snapshot.apply world update).1.data) ∧
    (∀ (world : World) (update : Update) (snapshot : Snapshot),
      snapshot.revision < 2 ^ 32 - 1 →
        (snapshot.revision < (snapshot.apply world update).1.revision ↔
          (snapshot.apply world update).1.data ≠ snapshot.data)) ∧
    (∀ (world : World) (update : Update) (snapshot : Snapshot) (old : String),
      snapshot.data.application = some old →
        (snapshot.apply world update).1.data.application ≠ some old →
          Cleared update (snapshot.apply world update).1.data) ∧
    ∀ (id : String) (world : World) (update : Update) (snapshot : ProjectionRuntimeSnapshot),
      (∀ session ∈ snapshot.session, session.id ≠ id ∨ session.state = .failed) →
        snapshot.updateMetadata id world update = (snapshot, false) := by
  refine ⟨?_, ?_, ?_, ?_⟩
  · intro world later update snapshot
    rw [Snapshot.apply_eq_self_iff, Snapshot.data_apply]
    exact merge_twice world later update snapshot.data
  · intro world update snapshot hroom
    exact Snapshot.revision_lt_iff world update hroom
  · intro world update snapshot old hold hchanged
    rw [Snapshot.data_apply] at hchanged ⊢
    exact merge_cleared world update hold hchanged
  · intro id world update snapshot hother
    exact ProjectionRuntimeSnapshot.updateMetadata_other hother world update

/-- Where pictures can be written. -/
def disk : World := ⟨some "/run/artwork/1.img", 1⟩

/-- An application takes over from another, in a session that has not failed. -/
theorem updates_contract_player :
    Cleared (.playback none (some "Radio") (some 5))
        (Snapshot.apply disk (.playback none (some "Radio") (some 5))
          { data := { title := some "Song", application := some "Player" } }).1.data ∧
      0 < (Snapshot.apply disk (.phone (some "Phone") none) {}).1.revision ∧
      ProjectionRuntimeSnapshot.updateMetadata "aa-wired:1" disk (.battery (some 5) none) {} =
        ({}, false) :=
  ⟨updates_contract.2.2.1 disk _ { data := { title := some "Song", application := some "Player" } }
      "Player" rfl (by decide),
    (updates_contract.2.1 disk (.phone (some "Phone") none) {} (by decide)).mpr (by decide),
    updates_contract.2.2.2 "aa-wired:1" disk _ {} (by decide)⟩

/-- The smallest picture that is accepted: one pixel, and no content. -/
def pixel : List UInt8 :=
  Artwork.pngSignature ++ [0, 0, 0, 13, 0x49, 0x48, 0x44, 0x52, 0, 0, 0, 1, 0, 0, 0, 1] ++
    List.replicate 9 0

/-- A picture that could not be written the first time is written the second time. -/
theorem repeated_update_changes :
    ¬∀ (world later : World) (update : Update) (snapshot : Snapshot),
      ((snapshot.apply world update).1.apply later update).2 = false ∧
        ((snapshot.apply world update).1.apply later update).1.revision =
          (snapshot.apply world update).1.revision := by
  intro h
  have htwice := h ⟨none, 0⟩ disk (.track (some "Song") none none (some pixel) none) {}
  exact absurd htwice.1 (by decide)

end ProjectArgo.Projection.Metadata
