import ProjectArgo.Library.Json

/-!
# The route of the phone's music

The objects of the sound server are given as documents. The selected phone is one node of it, and
its output ports are to be linked to the ports of the same channels of the default output. The links
of this service carry its mark; a plan says which links to add, and whether to remove the marked ones
first.
-/
namespace ProjectArgo.Connectivity.Music

open Library (Json)

abbrev Value := Json

/-- Indexing: a document that has no such field gives null. -/
def index (value : Value) (key : String) : Value :=
  match value with
  | .object fields => (fields.lookup key).getD .null
  | _ => .null

def as_str : Value → Option String
  | .string text => some text
  | _ => none

def as_u64 : Value → Option ℕ
  | .int value => if 0 ≤ value ∧ value < 2 ^ 64 then some value.toNat else none
  | _ => none

def as_array : Value → List Value
  | .array items => items
  | _ => []

/-- The digits of a number, with a sign in front or not. -/
def parse_u64 (text : String) : Option ℕ :=
  let digits : List Char := match text.toList with
    | '+' :: digits => digits
    | digits => digits
  let value := digits.foldl (fun value c => value * 10 + (c.toNat - '0'.toNat)) 0
  if digits ≠ [] ∧ digits.all Char.isDigit ∧ value < 2 ^ 64 then some value else none

/-- Comparison with a text. -/
def is (value : Value) (text : String) : Bool := as_str value == some text

def is_false : Value → Bool
  | .bool value => !value
  | _ => false

/-! ## The graph -/

def props (v : Value) : Value := index (index v "info") "props"

def numeric (v : Value) : Option ℕ := (as_u64 v).or ((as_str v).bind parse_u64)

def receiver (v : Value) (address : String) : Bool :=
  is (index (props v) "factory.name") "api.bluez5.a2dp.source" &&
    (as_str (index (props v) "api.bluez5.address")).any fun a => a.toLower == address.toLower

structure RoutePlan where
  source : ℕ
  replace : Bool
  links : List (ℕ × ℕ)
  deriving DecidableEq

/-- The name of the default output. A setting is a document or the text of one. -/
def default_output (parse : String → Option Value) (graph : List Value) : Except String String :=
  let found := (graph.filter fun v => is (index v "type") "PipeWire:Interface:Metadata").flatMap
    (fun v => as_array (index v "metadata")) |>.find? fun v =>
      is (index v "key") "default.audio.sink"
  let value := found.bind fun v =>
    match as_str (index v "value") with
    | some text => parse text
    | none => some (index v "value")
  match value.bind fun v => as_str (index v "name") with
  | some name => .ok name
  | none => .error "No selected host output"

def marked (owner : String) (v : Value) : Bool := is (index (props v) "argo.music.owner") owner

def is_sink (default : String) (v : Value) : Bool :=
  is (index (props v) "node.name") default && is (index (props v) "media.class") "Audio/Sink"

def is_output (source_id : ℕ) (v : Value) : Bool :=
  numeric (index (props v) "node.id") == some source_id &&
    is (index (props v) "port.direction") "out" &&
    (as_str (index (props v) "audio.channel")).isSome

/-- An input port for the channel of `output`, which is a text. -/
def is_input (sink_id : ℕ) (output v : Value) : Bool :=
  numeric (index (props v) "node.id") == some sink_id &&
    is (index (props v) "port.direction") "in" &&
    as_str (index (props v) "audio.channel") == as_str (index (props output) "audio.channel")

/-- A marked link that goes elsewhere. -/
def misplaced (owner : String) (sink_id : ℕ) (v : Value) : Bool :=
  marked owner v && numeric (index (index v "info") "input-node-id") != some sink_id

def connects (output input : ℕ) (v : Value) : Bool :=
  numeric (index (index v "info") "output-port-id") == some output &&
    numeric (index (index v "info") "input-port-id") == some input

def check_links (owner : String) (source_id : ℕ) : List Value → Except String Unit
  | [] => .ok ()
  | link :: graph =>
    if marked owner link ∧ is (index (index link "info") "state") "error" then
      .error "Owned Bluetooth route failed; cleanup required"
    else if numeric (index (index link "info") "output-node-id") = some source_id ∧
        ¬marked owner link then
      .error "A2DP receiver has an external route; stop it before Argo playback"
    else check_links owner source_id graph

/-- The links for the output ports, as far as they are not there yet. -/
def plan_links (graph : List Value) (sink_id : ℕ) (replace : Bool) :
    List Value → Except String (List (ℕ × ℕ))
  | [] => .ok []
  | output :: outputs =>
    match graph.find? (is_input sink_id output) with
    | none => .error "Host output has no matching audio channel"
    | some input =>
      match numeric (index output "id") with
      | none => .error "Missing output port"
      | some output =>
        match numeric (index input "id") with
        | none => .error "Missing input port"
        | some input => do
          let links ← plan_links graph sink_id replace outputs
          if replace ∨ ¬graph.any (connects output input) then .ok ((output, input) :: links)
          else .ok links

def route_plan (parse : String → Option Value) (graph : List Value) (address owner : String) :
    Except String RoutePlan :=
  match graph.filter fun n => receiver n address with
  | [source] =>
    if ¬is_false (index (props source) "node.autoconnect") ∧
        ¬is (index (props source) "node.autoconnect") "false" then
      .error "WirePlumber reception is not opted in; install routing configuration and log out/in"
    else
      match numeric (index source "id") with
      | none => .error "Missing A2DP node identity"
      | some source_id =>
        match default_output parse graph with
        | .error reason => .error reason
        | .ok default =>
          match graph.find? (is_sink default) with
          | none => .error "Selected output disappeared"
          | some sink =>
            match numeric (index sink "id") with
            | none => .error "Missing output identity"
            | some sink_id => do
              check_links owner source_id graph
              let replace := graph.any (misplaced owner sink_id)
              let outputs := graph.filter (is_output source_id)
              if outputs = [] ∨ 2 < outputs.length then
                .error "Waiting for mono/stereo A2DP ports"
              else
                let links ← plan_links graph sink_id replace outputs
                .ok ⟨source_id, replace, links⟩
  | _ => .error "Waiting for one selected-phone A2DP receiver"

end ProjectArgo.Connectivity.Music
