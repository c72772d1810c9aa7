import Mathlib.Algebra.Order.Field.Rat
import Mathlib.Data.Finset.Basic
import ProjectArgo.Library.Crash

/-!
# Settings

The settings are one JSON document in a file. A write puts the new document into a
temporary file, moves the present file aside as a backup and the temporary file in its
place, and deletes the backup. A load that finds a backup and no file moves the backup
back first. What a write fails to do leaves the settings in memory as they were.
-/
namespace ProjectArgo.Settings

open Library Library.Crashing

inductive Json
  | null
  | bool (value : Bool)
  | int (value : ℤ)
  | double (value : ℚ)
  | string (value : String)
  | array (items : List Json)
  | object (fields : List (String × Json))

/-- `Map<String, Object?>`, in the order in which keys were added. -/
abbrev JsonMap := List (String × Json)

namespace JsonMap

/-- The value of a key is replaced where it is, or added at the end. -/
def put (fields : JsonMap) (key : String) (value : Json) : JsonMap :=
  if fields.any (·.1 = key) then
    fields.map fun field => if field.1 = key then (key, value) else field
  else fields ++ [(key, value)]

def remove (fields : JsonMap) (key : String) : JsonMap := fields.filter (·.1 ≠ key)

end JsonMap

def currentSettingsSchemaVersion : ℤ := 1

structure SettingsDocument where
  schemaVersion : ℤ := currentSettingsSchemaVersion
  values : JsonMap := []
  /-- Unrecognized root fields. -/
  additionalRootValues : JsonMap := []

def SettingsDocument.withValues (document : SettingsDocument) (values : JsonMap) :
    SettingsDocument := { document with values := values }

/-! ## The file -/

/-- The text of a file, which may be no JSON. -/
inductive Content
  | unreadable
  | json (value : Json)

/-- What `write` encodes. -/
def encode (document : SettingsDocument) : Content :=
  .json (.object ((JsonMap.put document.additionalRootValues "schemaVersion"
    (.int document.schemaVersion)).put "values" (.object document.values)))

/-- The checks of `read`. -/
def decode : Content → Option SettingsDocument
  | .json (.object root) =>
    match root.lookup "schemaVersion", root.lookup "values" with
    | some (.int version), some (.object values) =>
      if version = currentSettingsSchemaVersion then
        some ⟨version, values, (JsonMap.remove root "schemaVersion").remove "values"⟩
      else none
    | _, _ => none
  | _ => none

/-- The settings file, and the two that a write uses besides. -/
structure Disk where
  file : Option Content := none
  temporary : Option Content := none
  backup : Option Content := none

namespace Disk

/-- `rename`, for the three renames there are, and the one that puts a file away. -/
def fileToBackup (disk : Disk) : Disk := { disk with file := none, backup := disk.file }

def backupToFile (disk : Disk) : Disk := { disk with file := disk.backup, backup := none }

def temporaryToFile (disk : Disk) : Disk := { disk with file := disk.temporary, temporary := none }

def fileToCorrupt (disk : Disk) : Disk := { disk with file := none }

end Disk

/-- A step that takes effect at once or not at all. -/
def atomically (effect : Disk → Disk) : Crashing Disk PUnit := act effect id

/-- `file.parent.create`, which leaves the three files alone. -/
def createParent : Crashing Disk PUnit := atomically id

def deleteTemporary : Crashing Disk PUnit := atomically fun disk => { disk with temporary := none }

def deleteBackup : Crashing Disk PUnit := atomically fun disk => { disk with backup := none }

/-- A crash halfway through leaves some of the text. -/
def writeTemporary (content : Content) : Crashing Disk PUnit :=
  act (fun disk => { disk with temporary := some content })
    fun disk => { disk with temporary := some .unreadable }

def skip : Crashing Disk PUnit := pure ⟨⟩

/-- A step that is taken if the files are so. -/
def whenever (condition : Disk → Bool) (step : Crashing Disk PUnit) : Crashing Disk PUnit := do
  let disk ← look id
  if condition disk then step else skip

namespace JsonFileSettingsStore

def recoverInterruptedReplacement : Crashing Disk PUnit :=
  whenever (fun disk => disk.file.isNone && disk.backup.isSome)
    (catching (do createParent; atomically Disk.backupToFile) skip)

def preserveCorruptFile : Crashing Disk PUnit :=
  whenever (·.file.isSome) (catching (atomically Disk.fileToCorrupt) skip)

def read : Crashing Disk SettingsDocument := do
  let _ ← recoverInterruptedReplacement
  let disk ← look id
  match disk.file with
  | none => pure {}
  | some content =>
    match decode content with
    | some document => pure document
    | none => do
      let _ ← preserveCorruptFile
      pure {}

/-- What `write` does once the temporary file could not be moved. -/
def putBack (movedOriginal : Bool) : Crashing Disk PUnit := do
  whenever (·.temporary.isSome) deleteTemporary
  whenever (fun disk => movedOriginal && disk.backup.isSome && disk.file.isNone)
    (atomically Disk.backupToFile)
  throw

/-- The present file becomes the backup. -/
def moveOriginal : Crashing Disk Bool := do
  let disk ← look id
  if disk.file.isSome then do
    whenever (·.backup.isSome) deleteBackup
    atomically Disk.fileToBackup
    pure true
  else pure false

def write (document : SettingsDocument) : Crashing Disk PUnit :=
  if document.schemaVersion ≠ currentSettingsSchemaVersion then throw
  else do
    createParent
    whenever (·.temporary.isSome) deleteTemporary
    writeTemporary (encode document)
    let movedOriginal ← moveOriginal
    catching (atomically Disk.temporaryToFile) (putBack movedOriginal)
    whenever (·.backup.isSome) (catching deleteBackup skip)

end JsonFileSettingsStore

/-! ## The service -/

/-- `SettingKey<T>`, over the values of all keys. Either function may throw. -/
structure SettingKey (V : Type) where
  id : String
  defaultValue : V
  serialize : V → Option Json
  deserialize : Json → Option V

/-- Each id is registered once. -/
structure SettingsSchema (V : Type) where
  keys : List (SettingKey V)
  nodup : (keys.map (·.id)).Nodup

structure SettingsService (V : Type) where
  document : SettingsDocument
  values : String → Option V
  rawValues : JsonMap

variable {V : Type}

namespace SettingsService

/-- A key in the loop of `load`: a stored value that is not valid is left out. -/
def loadKey (loaded : (String → Option V) × JsonMap) (key : SettingKey V) :
    (String → Option V) × JsonMap :=
  match loaded.2.lookup key.id with
  | none => (Function.update loaded.1 key.id (some key.defaultValue), loaded.2)
  | some raw =>
    match key.deserialize raw with
    | some value => (Function.update loaded.1 key.id (some value), loaded.2)
    | none =>
      (Function.update loaded.1 key.id (some key.defaultValue), loaded.2.remove key.id)

def load (schema : SettingsSchema V) : Crashing Disk (SettingsService V) := do
  let document ← JsonFileSettingsStore.read
  let loaded := schema.keys.foldl loadKey (fun _ => none, document.values)
  pure ⟨document.withValues loaded.2, loaded.1, loaded.2⟩

/-- The operation of `set`, with the value that was serialized when it was called. -/
def setTo (service : SettingsService V) (key : SettingKey V) (serialized : Json) (normalized : V) :
    Crashing Disk (SettingsService V) := do
  let nextRawValues := service.rawValues.put key.id serialized
  let nextDocument := service.document.withValues nextRawValues
  JsonFileSettingsStore.write nextDocument
  pure ⟨nextDocument, Function.update service.values key.id (some normalized), nextRawValues⟩

/-- The operation of `reset`. -/
def reset [BEq V] (service : SettingsService V) (key : SettingKey V) :
    Crashing Disk (SettingsService V) :=
  if (service.rawValues.lookup key.id).isNone && service.values key.id == some key.defaultValue then
    pure service
  else do
    let nextRawValues := service.rawValues.remove key.id
    let nextDocument := service.document.withValues nextRawValues
    JsonFileSettingsStore.write nextDocument
    pure ⟨nextDocument, Function.update service.values key.id (some key.defaultValue),
      nextRawValues⟩

end SettingsService

/-! ## Runs -/

/-- The disk, and the service while one runs. -/
structure System (V : Type) where
  disk : Disk
  running : Option (SettingsService V) := none

/-- What a caller or the disk gets to know. -/
inductive Act
  | loaded
  | acknowledged (id : String) (raw : Option Json)
  | failed
  | interrupted (id : String) (raw : Option Json)
  | rejected

/-- Operations come with what the steps on the disk come to. They run one at a time. -/
inductive Event (V : Type)
  | load (outcomes : List Outcome)
  | set (id : String) (value : V) (outcomes : List Outcome)
  | reset (id : String) (outcomes : List Outcome)
  | crash

namespace System

def key? (schema : SettingsSchema V) (id : String) : Option (SettingKey V) :=
  schema.keys.find? (·.id = id)

/-- A write of one key runs to its end. -/
def runs (system : System V) (service : SettingsService V) (id : String) (raw : Option Json)
    (outcomes : List Outcome) (operation : Crashing Disk (SettingsService V)) :
    System V × List Act :=
  match operation system.disk outcomes with
  | (.returned next, disk, _) => (⟨disk, some next⟩, [.acknowledged id raw])
  | (.threw, disk, _) => (⟨disk, some service⟩, [.failed])
  | (.crashed, disk, _) => (⟨disk, none⟩, [.interrupted id raw])

def callSet (schema : SettingsSchema V) (system : System V) (service : SettingsService V)
    (id : String) (value : V) (outcomes : List Outcome) : System V × List Act :=
  match key? schema id with
  | none => (system, [.rejected])
  | some key =>
    match key.serialize value with
    | none => (system, [.rejected])
    | some serialized =>
      match key.deserialize serialized with
      | none => (system, [.rejected])
      | some normalized =>
        system.runs service key.id (some serialized) outcomes
          (service.setTo key serialized normalized)

def callReset [BEq V] (schema : SettingsSchema V) (system : System V) (service : SettingsService V)
    (id : String) (outcomes : List Outcome) : System V × List Act :=
  match key? schema id with
  | none => (system, [.rejected])
  | some key => system.runs service key.id none outcomes (service.reset key)

def step [BEq V] (schema : SettingsSchema V) (system : System V) :
    Event V → System V × List Act
  | .load outcomes =>
    match system.running with
    | some _ => (system, [])
    | none =>
      match SettingsService.load schema system.disk outcomes with
      | (.returned service, disk, _) => (⟨disk, some service⟩, [.loaded])
      | (_, disk, _) => (⟨disk, none⟩, [])
  | .set id value outcomes =>
    match system.running with
    | some service => callSet schema system service id value outcomes
    | none => (system, [])
  | .reset id outcomes =>
    match system.running with
    | some service => callReset schema system service id outcomes
    | none => (system, [])
  | .crash => ({ system with running := none }, [])

end System

end ProjectArgo.Settings
