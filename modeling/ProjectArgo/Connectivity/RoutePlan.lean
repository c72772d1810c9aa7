import Mathlib.Data.List.Forall2
import ProjectArgo.Connectivity.Music

/-!
# A plan is sound and settles

A plan links ports of the phone to ports of the default output, channel by channel. Once the marked
links that go elsewhere are gone and the planned ones are there, the graph needs no further plan: the
new links are none of the objects that a plan is made from, so the same ports are found, and all of
them are connected.
-/
namespace ProjectArgo.Connectivity.Music

variable {parse : String → Option Value} {graph : List Value} {address owner : String}

/-! ## What a plan is made from -/

structure Routed (parse : String → Option Value) (graph : List Value) (address owner : String)
    (source : Value) (output : String) (sink : Value) (sink_id : ℕ) (plan : RoutePlan) :
    Prop where
  receivers : (graph.filter fun n => receiver n address) = [source]
  autoconnect : is_false (index (props source) "node.autoconnect") ∨
    is (index (props source) "node.autoconnect") "false"
  source_id : numeric (index source "id") = some plan.source
  default : default_output parse graph = .ok output
  found : graph.find? (is_sink output) = some sink
  found_id : numeric (index sink "id") = some sink_id
  links : check_links owner plan.source graph = .ok ()
  replace : plan.replace = graph.any (misplaced owner sink_id)
  some_outputs : graph.filter (is_output plan.source) ≠ []
  few_outputs : (graph.filter (is_output plan.source)).length ≤ 2
  planned : plan_links graph sink_id plan.replace (graph.filter (is_output plan.source)) =
    .ok plan.links

theorem route_plan_eq_ok {plan : RoutePlan} : route_plan parse graph address owner = .ok plan ↔
    ∃ source output sink sink_id,
      Routed parse graph address owner source output sink sink_id plan := by
  constructor
  · intro h
    unfold route_plan at h
    split at h
    swap
    · cases h
    rename_i source hreceivers
    split at h
    · cases h
    rename_i hautoconnect
    split at h
    · cases h
    rename_i source_id hsource
    split at h
    · cases h
    rename_i output houtput
    split at h
    · cases h
    rename_i sink hsink
    split at h
    · cases h
    rename_i sink_id hid
    cases hlinks : check_links owner source_id graph with
    | error reason =>
      rw [hlinks] at h
      cases h
    | ok checked =>
      rw [hlinks] at h
      dsimp only [bind, Except.bind] at h
      split at h
      · cases h
      rename_i houtputs
      push Not at houtputs
      cases hplanned : plan_links graph sink_id (graph.any (misplaced owner sink_id))
          (graph.filter (is_output source_id)) with
      | error reason =>
        rw [hplanned] at h
        cases h
      | ok links =>
        rw [hplanned] at h
        cases h
        exact ⟨source, output, sink, sink_id, hreceivers, by simpa [or_iff_not_imp_left] using
          hautoconnect, hsource, houtput, hsink, hid, hlinks, rfl, houtputs.1, houtputs.2, hplanned⟩
  · rintro ⟨source, output, sink, sink_id, routed⟩
    have hautoconnect : ¬(¬is_false (index (props source) "node.autoconnect") ∧
        ¬is (index (props source) "node.autoconnect") "false") := by
      have h := routed.autoconnect
      tauto
    have houtputs : ¬(graph.filter (is_output plan.source) = [] ∨
        2 < (graph.filter (is_output plan.source)).length) := by
      rintro (h | h)
      · exact routed.some_outputs h
      · exact absurd routed.few_outputs (by omega)
    have hplanned := routed.planned
    rw [routed.replace] at hplanned
    simp only [route_plan, routed.receivers, if_neg hautoconnect, routed.source_id, routed.default,
      routed.found, routed.found_id, routed.links, bind, Except.bind, if_neg houtputs, hplanned]
    rw [← routed.replace]

theorem check_links_eq_ok {source_id : ℕ} : check_links owner source_id graph = .ok () ↔
    ∀ link ∈ graph, ¬(marked owner link ∧ is (index (index link "info") "state") "error") ∧
      (numeric (index (index link "info") "output-node-id") = some source_id →
        marked owner link) := by
  induction graph with
  | nil => simp [check_links]
  | cons link graph ih =>
    simp only [check_links, List.forall_mem_cons, ← ih]
    split
    · rename_i h
      simp [h]
    · rename_i hstate
      split
      · rename_i h
        simp [h]
      · rename_i hforeign
        have hown : numeric (index (index link "info") "output-node-id") = some source_id →
            marked owner link := by
          intro h
          by_contra hnot
          exact hforeign ⟨h, hnot⟩
        exact (and_iff_right ⟨hstate, hown⟩).symm

/-- The pair of ports that an output port of the phone stands for. -/
def PairOf (graph : List Value) (sink_id : ℕ) (output : Value) (pair : ℕ × ℕ) : Prop :=
  ∃ input, graph.find? (is_input sink_id output) = some input ∧
    numeric (index output "id") = some pair.1 ∧ numeric (index input "id") = some pair.2

/-- Every output port needs its pair; planned are the pairs that are not connected, or all. -/
theorem plan_links_eq_ok {sink_id : ℕ} {replace : Bool} {outputs : List Value}
    {links : List (ℕ × ℕ)} : plan_links graph sink_id replace outputs = .ok links ↔
      ∃ pairs, List.Forall₂ (PairOf graph sink_id) outputs pairs ∧
        links = pairs.filter fun pair => replace || !graph.any (connects pair.1 pair.2) := by
  induction outputs generalizing links with
  | nil => simp [plan_links, eq_comm]
  | cons output outputs ih =>
    constructor
    · intro h
      unfold plan_links at h
      split at h
      · cases h
      rename_i input hinput
      split at h
      · cases h
      rename_i output_id houtput
      split at h
      · cases h
      rename_i input_id hid
      cases hrest : plan_links graph sink_id replace outputs with
      | error reason =>
        rw [hrest] at h
        cases h
      | ok rest =>
        obtain ⟨pairs, hpairs, rfl⟩ := ih.mp hrest
        rw [hrest] at h
        dsimp only [bind, Except.bind] at h
        refine ⟨(output_id, input_id) :: pairs, .cons ⟨input, hinput, houtput, hid⟩ hpairs, ?_⟩
        rw [List.filter_cons]
        split at h
        · rename_i hneeded
          cases h
          rw [if_pos (by simpa using hneeded)]
        · rename_i hneeded
          cases h
          rw [if_neg (by simpa using hneeded)]
    · rintro ⟨pairs, hpairs, rfl⟩
      cases hpairs with
      | @cons _ pair _ pairs hpair hrest =>
        obtain ⟨input, hinput, houtput, hid⟩ := hpair
        have hplan := ih.mpr ⟨pairs, hrest, rfl⟩
        simp only [plan_links, hinput, houtput, hid, hplan, bind, Except.bind, List.filter_cons]
        by_cases hneeded : replace = true ∨ ¬graph.any (connects pair.1 pair.2) = true
        · rw [if_pos hneeded, if_pos (by simpa using hneeded)]
        · rw [if_neg hneeded, if_neg (by simpa using hneeded)]

/-! ## The graph after a plan -/

/-- An object that is a link and has no property of a node or a port. -/
structure Bare (v : Value) : Prop where
  link : is (index v "type") "PipeWire:Interface:Link"
  factory : ¬is (index (props v) "factory.name") "api.bluez5.a2dp.source"
  media : ¬is (index (props v) "media.class") "Audio/Sink"
  node : numeric (index (props v) "node.id") = none

/-- Only links carry the mark. -/
def OnlyLinks (owner : String) (graph : List Value) : Prop :=
  ∀ v ∈ graph, marked owner v → Bare v

/-- A marked active link from the phone's node to the output's, between two ports. -/
structure ActiveLink (owner : String) (source_id sink_id : ℕ) (pair : ℕ × ℕ) (v : Value) :
    Prop where
  bare : Bare v
  marked : marked owner v
  active : is (index (index v "info") "state") "active"
  output_node : numeric (index (index v "info") "output-node-id") = some source_id
  input_node : numeric (index (index v "info") "input-node-id") = some sink_id
  connects : connects pair.1 pair.2 v

/-- The graph without the marked links, if the plan says replace, and with the planned links. -/
def carriedOut (owner : String) (graph added : List Value) (plan : RoutePlan) : List Value :=
  (if plan.replace then graph.filter fun v =>
    !(is (index v "type") "PipeWire:Interface:Link" && marked owner v) else graph) ++ added

theorem is_unique {value : Value} {text other : String} (h : is value text) (h' : is value other) :
    text = other := by
  simp only [is, beq_iff_eq] at h h'
  exact Option.some.inj (h.symm.trans h')

theorem Bare.not_receiver {v : Value} (bare : Bare v) : receiver v address = false := by
  simp [receiver, bare.factory]

theorem Bare.not_sink {v : Value} (bare : Bare v) (output : String) : is_sink output v = false := by
  simp [is_sink, bare.media]

theorem Bare.not_output {v : Value} (bare : Bare v) (source_id : ℕ) :
    is_output source_id v = false := by
  simp [is_output, bare.node]

theorem Bare.not_input {v : Value} (bare : Bare v) (sink_id : ℕ) (output : Value) :
    is_input sink_id output v = false := by
  simp [is_input, bare.node]

theorem Bare.not_metadata {v : Value} (bare : Bare v) :
    is (index v "type") "PipeWire:Interface:Metadata" = false := by
  by_contra h
  exact absurd (is_unique bare.link (by simpa using h)) (by decide)

section
variable {plan : RoutePlan} {added : List Value} (hmarked : OnlyLinks owner graph)
  (hadded : ∀ v ∈ added, Bare v)
include hmarked hadded

/-- What is no link is found as before. -/
theorem filter_carriedOut {p : Value → Bool} (hp : ∀ v, Bare v → p v = false) :
    (carriedOut owner graph added plan).filter p = graph.filter p := by
  have hnew : added.filter p = [] := by
    rw [List.filter_eq_nil_iff]
    intro v hv
    simp [hp v (hadded v hv)]
  rw [carriedOut, List.filter_append, hnew, List.append_nil]
  split
  · rw [List.filter_filter]
    apply List.filter_congr
    intro v hv
    by_cases hmark : marked owner v
    · simp [hp v (hmarked v hv hmark)]
    · simp [hmark]
  · rfl

theorem find_carriedOut {p : Value → Bool} (hp : ∀ v, Bare v → p v = false) :
    (carriedOut owner graph added plan).find? p = graph.find? p := by
  rw [← List.head?_filter, ← List.head?_filter, filter_carriedOut hmarked hadded hp]

theorem default_carriedOut (parse : String → Option Value) :
    default_output parse (carriedOut owner graph added plan) = default_output parse graph := by
  unfold default_output
  rw [filter_carriedOut hmarked hadded fun v bare => bare.not_metadata]

end

theorem exists_of_mem_right {α β : Type*} {R : α → β → Prop} {xs : List α} {ys : List β}
    (h : List.Forall₂ R xs ys) {y : β} (hy : y ∈ ys) : ∃ x ∈ xs, R x y := by
  induction h with
  | nil => cases hy
  | @cons x _ xs _ hR _ ih =>
    rcases List.mem_cons.mp hy with rfl | hy
    · exact ⟨x, by simp, hR⟩
    · obtain ⟨x', hx, hR⟩ := ih hy
      exact ⟨x', by simp [hx], hR⟩

theorem exists_of_mem_left {α β : Type*} {R : α → β → Prop} {xs : List α} {ys : List β}
    (h : List.Forall₂ R xs ys) {x : α} (hx : x ∈ xs) : ∃ y ∈ ys, R x y :=
  exists_of_mem_right h.flip hx

/-- Everything that is checked of the links still holds of those that stay, and of the new ones. -/
theorem check_links_carriedOut {plan : RoutePlan} {sink_id : ℕ} {added : List Value}
    (h : check_links owner plan.source graph = .ok ())
    (hadded : List.Forall₂ (ActiveLink owner plan.source sink_id) plan.links added) :
    check_links owner plan.source (carriedOut owner graph added plan) = .ok () := by
  rw [check_links_eq_ok] at h ⊢
  intro link hlink
  rcases List.mem_append.mp hlink with hold | hnew
  · apply h link
    split at hold
    · exact (List.mem_filter.mp hold).1
    · exact hold
  · obtain ⟨pair, -, active⟩ := exists_of_mem_right hadded hnew
    refine ⟨?_, fun _ => active.marked⟩
    rintro ⟨-, herror⟩
    exact absurd (is_unique active.active herror) (by decide)

/-- No marked link goes elsewhere any more. -/
theorem misplaced_carriedOut {plan : RoutePlan} {sink_id : ℕ} {added : List Value}
    (hmarked : OnlyLinks owner graph) (hreplace : plan.replace = graph.any (misplaced owner sink_id))
    (hadded : List.Forall₂ (ActiveLink owner plan.source sink_id) plan.links added) :
    (carriedOut owner graph added plan).any (misplaced owner sink_id) = false := by
  rw [carriedOut, List.any_append, Bool.or_eq_false_iff]
  constructor
  · split
    · rw [List.any_eq_false]
      intro v hv
      obtain ⟨hin, hkept⟩ := List.mem_filter.mp hv
      by_cases hmark : marked owner v
      · simp [(hmarked v hin hmark).link, hmark] at hkept
      · simp [misplaced, hmark]
    · rename_i hkeep
      rw [← hreplace]
      simpa using hkeep
  · rw [List.any_eq_false]
    intro v hv
    obtain ⟨pair, -, active⟩ := exists_of_mem_right hadded hv
    simp [misplaced, active.input_node]

/-- Every pair of ports is connected then. -/
theorem connected_carriedOut {plan : RoutePlan} {sink_id : ℕ} {added : List Value}
    {pairs : List (ℕ × ℕ)}
    (hlinks : plan.links = pairs.filter fun pair =>
      plan.replace || !graph.any (connects pair.1 pair.2))
    (hadded : List.Forall₂ (ActiveLink owner plan.source sink_id) plan.links added)
    {pair : ℕ × ℕ} (hpair : pair ∈ pairs) :
    (carriedOut owner graph added plan).any (connects pair.1 pair.2) = true := by
  rw [carriedOut, List.any_append, Bool.or_eq_true]
  by_cases hplanned : pair ∈ plan.links
  · right
    obtain ⟨v, hv, active⟩ := exists_of_mem_left hadded hplanned
    exact List.any_eq_true.mpr ⟨v, hv, active.connects⟩
  · left
    rw [hlinks, List.mem_filter, not_and] at hplanned
    have hthere := hplanned hpair
    simp only [Bool.or_eq_true, not_or, Bool.not_eq_true, Bool.not_eq_false'] at hthere
    rw [if_neg (by simp [hthere.1])]
    exact hthere.2

theorem settles {plan : RoutePlan} {source sink : Value} {output : String} {sink_id : ℕ}
    {added : List Value}
    (routed : Routed parse graph address owner source output sink sink_id plan)
    (hmarked : OnlyLinks owner graph)
    (hadded : List.Forall₂ (ActiveLink owner plan.source sink_id) plan.links added) :
    route_plan parse (carriedOut owner graph added plan) address owner =
      .ok ⟨plan.source, false, []⟩ := by
  have hbare : ∀ v ∈ added, Bare v := by
    intro v hv
    obtain ⟨pair, -, active⟩ := exists_of_mem_right hadded hv
    exact active.bare
  have houtputs : (carriedOut owner graph added plan).filter (is_output plan.source) =
      graph.filter (is_output plan.source) :=
    filter_carriedOut hmarked hbare fun v bare => bare.not_output plan.source
  have hchecks : check_links owner plan.source (carriedOut owner graph added plan) = .ok () :=
    check_links_carriedOut routed.links hadded
  obtain ⟨pairs, hpairs, hlinks⟩ := plan_links_eq_ok.mp routed.planned
  rw [route_plan_eq_ok]
  refine ⟨source, output, sink, sink_id, ?_⟩
  constructor
  · rw [filter_carriedOut hmarked hbare fun v bare => bare.not_receiver]
    exact routed.receivers
  · exact routed.autoconnect
  · exact routed.source_id
  · rw [default_carriedOut hmarked hbare]
    exact routed.default
  · rw [find_carriedOut hmarked hbare fun v bare => bare.not_sink output]
    exact routed.found
  · exact routed.found_id
  · exact hchecks
  · exact (misplaced_carriedOut hmarked routed.replace hadded).symm
  · rw [houtputs]
    exact routed.some_outputs
  · rw [houtputs]
    exact routed.few_outputs
  · rw [houtputs, plan_links_eq_ok]
    refine ⟨pairs, hpairs.imp ?_, ?_⟩
    · rintro port pair ⟨input, hinput, hids⟩
      refine ⟨input, ?_, hids⟩
      rw [find_carriedOut hmarked hbare fun v bare => bare.not_input sink_id port]
      exact hinput
    · symm
      rw [List.filter_eq_nil_iff]
      intro pair hpair
      simp [connected_carriedOut hlinks hadded hpair]

/-- A plan links output ports of the phone's node to input ports of the default output for the same
channels, two at most. Where only links carry the mark, the graph on which the plan was carried out
needs nothing more. A graph in which a link that is not marked leaves the phone's node is rejected. -/
theorem plan_sound_and_stable (parse : String → Option Value) (graph : List Value)
    (address owner : String) :
    (∀ plan, route_plan parse graph address owner = .ok plan → ∃ phone output sink sink_id,
      (graph.filter fun n => receiver n address) = [phone] ∧
      numeric (index phone "id") = some plan.source ∧
      default_output parse graph = .ok output ∧ graph.find? (is_sink output) = some sink ∧
      numeric (index sink "id") = some sink_id ∧
      plan.links.length ≤ 2 ∧
      (∀ pair ∈ plan.links, ∃ port ∈ graph, ∃ input ∈ graph, is_output plan.source port ∧
        is_input sink_id port input ∧ numeric (index port "id") = some pair.1 ∧
        numeric (index input "id") = some pair.2) ∧
      (OnlyLinks owner graph → ∀ added,
        List.Forall₂ (ActiveLink owner plan.source sink_id) plan.links added →
        route_plan parse (carriedOut owner graph added plan) address owner =
          .ok ⟨plan.source, false, []⟩)) ∧
    ∀ phone ∈ graph, ∀ link ∈ graph, ∀ id, receiver phone address →
      numeric (index phone "id") = some id →
      numeric (index (index link "info") "output-node-id") = some id → ¬marked owner link →
      ∃ reason, route_plan parse graph address owner = .error reason := by
  constructor
  · intro plan h
    obtain ⟨source, output, sink, sink_id, routed⟩ := route_plan_eq_ok.mp h
    obtain ⟨pairs, hpairs, hlinks⟩ := plan_links_eq_ok.mp routed.planned
    refine ⟨source, output, sink, sink_id, routed.receivers, routed.source_id, routed.default,
      routed.found, routed.found_id, ?_, ?_, ?_⟩
    · calc plan.links.length ≤ pairs.length := hlinks ▸ List.length_filter_le _ _
        _ = (graph.filter (is_output plan.source)).length := hpairs.length_eq.symm
        _ ≤ 2 := routed.few_outputs
    · intro pair hpair
      rw [hlinks] at hpair
      obtain ⟨port, hport, input, hinput, hids⟩ :=
        exists_of_mem_right hpairs (List.mem_filter.mp hpair).1
      obtain ⟨hin, hout⟩ := List.mem_filter.mp hport
      exact ⟨port, hin, input, List.mem_of_find?_eq_some hinput, hout, List.find?_some hinput, hids⟩
    · intro hmarked added hadded
      exact settles routed hmarked hadded
  · intro phone hphone link hlink id hreceiver hid houtput hforeign
    cases h : route_plan parse graph address owner with
    | error reason => exact ⟨reason, rfl⟩
    | ok plan =>
      obtain ⟨source, output, sink, sink_id, routed⟩ := route_plan_eq_ok.mp h
      have hsource : phone = source := by
        have hmem : phone ∈ graph.filter fun n => receiver n address :=
          List.mem_filter.mpr ⟨hphone, hreceiver⟩
        rw [routed.receivers] at hmem
        exact List.mem_singleton.mp hmem
      rw [hsource, routed.source_id] at hid
      have hown := (check_links_eq_ok.mp routed.links link hlink).2 (hid ▸ houtput)
      exact absurd hown hforeign

/-! ### Graphs at hand -/

def phoneAddress : String := "00:11:22:33:44:55"

/-- A phone with one channel and an output that has it. -/
def plain : List Value :=
  [.object [("id", .int 1), ("info", .object [("props", .object [
      ("factory.name", .string "api.bluez5.a2dp.source"),
      ("api.bluez5.address", .string phoneAddress), ("node.autoconnect", .bool false)])])],
    .object [("id", .int 2), ("info", .object [("props", .object [
      ("node.name", .string "selected-output"), ("media.class", .string "Audio/Sink")])])],
    .object [("type", .string "PipeWire:Interface:Metadata"), ("metadata", .array [
      .object [("key", .string "default.audio.sink"),
        ("value", .object [("name", .string "selected-output")])]])],
    .object [("id", .int 3), ("info", .object [("props", .object [("node.id", .int 1),
      ("port.direction", .string "out"), ("audio.channel", .string "FL")])])],
    .object [("id", .int 4), ("info", .object [("props", .object [("node.id", .int 2),
      ("port.direction", .string "in"), ("audio.channel", .string "FL")])])]]

/-- A link between two nodes and two ports. -/
def linkValue (owner : String) (output_node input_node output input : ℤ) : Value :=
  .object [("type", .string "PipeWire:Interface:Link"), ("info", .object [
    ("output-node-id", .int output_node), ("input-node-id", .int input_node),
    ("output-port-id", .int output), ("input-port-id", .int input), ("state", .string "active"),
    ("props", .object [("argo.music.owner", .string owner)])])]

/-- The node of an application that carries the mark of this service. -/
def markedNode : Value :=
  .object [("id", .int 9), ("type", .string "PipeWire:Interface:Node"),
    ("info", .object [("props", .object [("argo.music.owner", .string "test")])])]

theorem plan_sound_and_stable_plain :
    route_plan (fun _ => none) (plain ++ [linkValue "test" 1 2 3 4]) phoneAddress "test" =
      .ok ⟨1, false, []⟩ := by
  obtain ⟨phone, output, sink, sink_id, -, -, houtput, hsink, hid, -, -, hstable⟩ :=
    (plan_sound_and_stable (fun _ => none) plain phoneAddress "test").1 ⟨1, false, [(3, 4)]⟩
      (by decide +kernel)
  obtain rfl : "selected-output" = output := by
    have hdefault : default_output (fun _ => none) plain = .ok "selected-output" := by
      decide +kernel
    exact Except.ok.inj (hdefault.symm.trans houtput)
  obtain rfl : 2 = sink_id := by
    have hfound : ((plain.find? (is_sink "selected-output")).bind fun sink =>
        numeric (index sink "id")) = some 2 := by
      decide +kernel
    rw [hsink, Option.bind_some, hid] at hfound
    exact (Option.some.inj hfound).symm
  apply hstable
  · intro v hv hmark
    have hnone : ∀ v ∈ plain, ¬marked "test" v := by decide +kernel
    exact absurd hmark (hnone v hv)
  · refine .cons ⟨⟨?_, ?_, ?_, ?_⟩, ?_, ?_, ?_, ?_, ?_⟩ .nil
    all_goals decide +kernel

/-- A marked object that is no link is planned around forever, and a link into the phone's node is
not looked at. -/
theorem marks_and_inputs :
    (route_plan (fun _ => none) (plain ++ [markedNode]) phoneAddress "test" = .ok ⟨1, true, [(3, 4)]⟩ ∧
      route_plan (fun _ => none) (carriedOut "test" (plain ++ [markedNode])
        [linkValue "test" 1 2 3 4] ⟨1, true, [(3, 4)]⟩) phoneAddress "test" =
          .ok ⟨1, true, [(3, 4)]⟩) ∧
    route_plan (fun _ => none) (plain ++ [linkValue "desktop" 9 1 8 7]) phoneAddress "test" =
      .ok ⟨1, false, [(3, 4)]⟩ := by
  decide +kernel

end ProjectArgo.Connectivity.Music
