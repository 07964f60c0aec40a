/-
What a table tells of a decode.

Whatever is told belongs to the ending of the run, and each run has one: that there was no decoder for the innermost
bytes, or that they were refused and kept. So there is never more than one event, at any depth, and what it says can be
checked against the packet (`Told`), whose innermost layer has those very bytes. A run that gives a fault tells of nothing,
except where the outermost bytes have no decoder and there are none of them.
-/
import PacketStack.Proofs.Endings

namespace PacketStack

/-- The events that a packet bears out. -/
inductive Told (p : Packet) : List Event → Prop
  | nothing : p.containsMalformed = false → Told p []
  | fallback {contract : Contract} {value : Number} {inner : Bytes} :
      p.innermost = .unknown inner → Told p [.fallback contract value]
  | malformedLayer {contract : Contract} {value : Number} {inner : Bytes} {f : Fault} :
      p.innermost = .malformed inner (some f) ∨
        p.innermost = .unknown inner ∧ (∃ frame ∈ p.frames, frame.kind = .redirected) →
      Told p [.malformedLayer contract value inner f]

namespace Told

variable {p : Packet} {events : List Event} {e : Event}

theorem length_le (h : Told p events) : events.length ≤ 1 := by
  cases h <;> simp

theorem exists_of_containsMalformed (h : Told p events) (malformed : p.containsMalformed = true) :
    ∃ e ∈ events, e.code = "malformed-layer" := by
  cases h with
  | nothing clean => rw [clean] at malformed; cases malformed
  | fallback innermost =>
    rw [p.containsMalformed_eq, innermost] at malformed
    cases malformed
  | malformedLayer innermost => exact ⟨_, List.mem_cons_self, rfl⟩

theorem of_malformedLayer (h : Told p events) (he : e ∈ events) (code : e.code = "malformed-layer") :
    e.detail?.map Detail.data = some (Bytes.spaced p.innermost.serialize) ∧
    (p.innermost.kind = .malformed ∨ p.innermost.kind = .unknown ∧ ∃ frame ∈ p.frames, frame.kind = .redirected) := by
  cases h with
  | nothing clean => cases he
  | fallback innermost =>
    obtain rfl := List.mem_singleton.mp he
    exact absurd code (show "decoder-fallback" ≠ "malformed-layer" by decide)
  | malformedLayer innermost =>
    obtain rfl := List.mem_singleton.mp he
    rcases innermost with kept | ⟨unmarked, option⟩
    · rw [kept, Packet.malformed, Packet.serialize_leaf]
      exact ⟨rfl, .inl rfl⟩
    · rw [unmarked, Packet.unknown, Packet.serialize_leaf]
      exact ⟨rfl, .inr ⟨rfl, option⟩⟩

theorem of_fallback (h : Told p events) (he : e ∈ events) (code : e.code = "decoder-fallback") :
    p.innermost.kind = .unknown ∧ p.containsMalformed = false := by
  cases h with
  | nothing clean => cases he
  | fallback innermost =>
    rw [p.containsMalformed_eq, innermost]
    exact ⟨rfl, rfl⟩
  | malformedLayer innermost =>
    obtain rfl := List.mem_singleton.mp he
    exact absurd code (show "malformed-layer" ≠ "decoder-fallback" by decide)

end Told

/-! ## The ending of a run -/

theorem Layer.containsMalformed_of_complete {l : Layer} {raw : Bytes} {p : Packet}
    (h : l.dissect raw = .ok (.complete p)) : p.containsMalformed = false := by
  cases splits_of_dissect h <;> rfl

theorem Packet.containsMalformed_within {core : Packet} (clean : core.containsMalformed = false) (frames : List Frame) :
    (core.within frames).containsMalformed = false := by
  induction frames with
  | nil => exact clean
  | cons f rest ih =>
    change (f.enclosed (core.within rest)).containsMalformed = false
    cases f with
    | datagram d => exact ih
    | ssh h padding mac => exact ih
    | redirected h =>
      have same : (core.within rest).quarantined = core.within rest := by
        apply quarantined_of_not_hides
        rw [hidesMalformed, ih, Bool.and_false]
      rw [Frame.enclosed, same]
      exact ih

section
variable {r : Registry Decoder} {l : Layer} {raw : Bytes} {frames : List Frame} {ending : Ending}

theorem Descends.containsMalformed_of_complete {p : Packet} (h : Descends r l raw frames (.complete p)) :
    p.containsMalformed = false := by
  generalize same : Ending.complete p = ending at h
  induction h with
  | complete hd =>
    cases same
    exact Layer.containsMalformed_of_complete hd
  | unclaimed _ _ => cases same
  | refused _ _ _ => cases same
  | deeper _ _ _ ih => exact ih same

/-- What is told of a run is borne out by the packet that it gives. -/
theorem Descends.told (h : Descends r l raw frames ending) {p : Packet} (given : (ending.outcome frames).result = .ok p) :
    Told p (ending.outcome frames).events := by
  cases ending with
  | complete core =>
    cases given
    exact .nothing (Packet.containsMalformed_within h.containsMalformed_of_complete frames)
  | unclaimed contract value inner =>
    cases given
    have innermost := Packet.innermost_within (.unknown inner) frames
    rw [Leaf.raw, ← Packet.unknown, ite_self] at innermost
    exact .fallback innermost
  | refused contract value inner f =>
    cases contained : f.ofPacket with
    | false =>
      rw [Ending.outcome_of_not_ofPacket frames contained] at given
      cases given
    | true =>
      rw [Ending.outcome_of_ofPacket frames contained] at given ⊢
      cases given
      have innermost := Packet.innermost_within (.malformed inner (some f)) frames
      refine .malformedLayer ?_
      rw [Packet.malformed, Packet.frames_within]
      -- An option that has the leaf further inside took the mark off, and is itself what the packet shows for it.
      split at innermost
      · next option =>
        obtain ⟨frame, member, kind⟩ := option
        exact .inr ⟨innermost, frame, (List.dropLast_sublist frames).subset member, kind⟩
      · exact .inl innermost

theorem Ending.events_of_error {f : Fault} (given : (ending.outcome frames).result = .error f) :
    (ending.outcome frames).events = [] := by
  obtain ⟨passes, contract, value, inner, rfl⟩ := eq_refused_of_error given
  rw [outcome_of_not_ofPacket frames passes]

/-- A layer's decoder tells of nothing if it fails. -/
theorem Layer.told (hr : r.Steady) (l : Layer) (raw : Bytes) :
    (∃ f, (l.decode r raw).result = .error f ∧ (l.decode r raw).events = []) ∨
    ∃ p, (l.decode r raw).result = .ok p ∧ Told p (l.decode r raw).events := by
  cases hd : l.dissect raw with
  | error f =>
    rw [decode_refused hd]
    exact .inl ⟨f, rfl, rfl⟩
  | ok d =>
    obtain ⟨frames, ending, down⟩ := hr.descends hd
    rw [down.decode]
    cases given : (ending.outcome frames).result with
    | error f => exact .inl ⟨f, rfl, Ending.events_of_error given⟩
    | ok p => exact .inr ⟨p, rfl, down.told given⟩

end

/-! ## An outermost layer -/

namespace Registry

variable {r : Registry Decoder} {contract : Contract} {value : Number} {raw : Bytes}

theorem decode_of_missing (missing : r.find? contract value = none) :
    r.decode contract raw value =
      { Layer.unknown.decode r raw with events := .fallback contract value :: (Layer.unknown.decode r raw).events } := by
  simp only [decode, lookup, missing]
  rfl

theorem decode_of_handler {handler : Handler} (found : r.find? contract value = some (.handler handler)) :
    r.decode contract raw value = handler.decode r raw := by
  simp only [decode, lookup, found]
  rfl

/-- What is told of an outermost layer: as of any layer, but bytes without a decoder count as unknown at once. -/
theorem Steady.told (hr : r.Steady) (contract : Contract) (value : Number) (raw : Bytes) :
    (∃ f, (r.decode contract raw value).result = .error f ∧
      (r.decode contract raw value).events =
        if r.has contract value = false ∧ raw = [] then [.fallback contract value] else []) ∨
    ∃ p, (r.decode contract raw value).result = .ok p ∧ Told p (r.decode contract raw value).events := by
  cases found : r.find? contract value with
  | none =>
    have absent : r.has contract value = false := congrArg Option.isSome found
    rw [decode_of_missing found, absent]
    -- Looked up before it is decoded: the event is there even if an unknown layer of no bytes is refused after it.
    by_cases empty : raw = []
    · subst empty
      rw [Layer.decode_refused (show Layer.unknown.dissect [] = .error .unknownEmpty from rfl)]
      exact .inl ⟨.unknownEmpty, rfl, rfl⟩
    · rw [Layer.decode_complete (Layer.Splits.unknown empty).dissect]
      exact .inr ⟨.unknown raw, rfl, .fallback rfl⟩
  | some d =>
    obtain ⟨handler, rfl, steady⟩ := hr.handler_of_find? found
    have present : r.has contract value = true := congrArg Option.isSome found
    rw [decode_of_handler found, present]
    cases steady with
    | layer l => exact l.told hr raw
    | failing fails =>
      obtain ⟨f, error⟩ := fails raw
      rw [Handler.decode_custom, error]
      exact .inl ⟨f, rfl, rfl⟩

end Registry

theorem map_event_stamp (clock : Option Clock) (events : List Event) :
    (stamp clock events).1.map Record.event = events := by
  induction events generalizing clock with
  | nil => rfl
  | cons event rest ih => exact congrArg (event :: ·) (ih (clock.map Clock.tick))

/-- **The records of a decode are complete, and there is at most one.** A packet with a malformed layer has one that says
so. One that says so has the bytes of the innermost layer, which is malformed or, inside an option, unknown; one that says
that there was no decoder comes with an unknown layer innermost and nothing malformed. A fault comes with no record,
except where there was neither a decoder nor a byte. -/
theorem Registry.decode_records {r : Registry Decoder} (hr : r.Steady) (contract : Contract) (value : Number) (raw : Bytes)
    (clock : Option Clock) :
    let o := r.decode contract raw value
    let records := (stamp clock o.events).1
    records.length ≤ 1 ∧
    (∀ p, o.result = .ok p →
      (p.containsMalformed = true → ∃ record ∈ records, record.event.code = "malformed-layer") ∧
      (∀ record ∈ records, record.event.code = "malformed-layer" →
        record.event.detail?.map Detail.data = some (Bytes.spaced p.innermost.serialize) ∧
        (p.innermost.kind = .malformed ∨ p.innermost.kind = .unknown ∧ ∃ frame ∈ p.frames, frame.kind = .redirected)) ∧
      ∀ record ∈ records, record.event.code = "decoder-fallback" →
        p.innermost.kind = .unknown ∧ p.containsMalformed = false) ∧
    ∀ f, o.result = .error f → records.map Record.event =
      if r.has contract value = false ∧ raw = [] then [.fallback contract value] else [] := by
  intro o records
  have same : records.map Record.event = o.events := map_event_stamp clock o.events
  have count : records.length = o.events.length := by rw [← same, List.length_map]
  have event {record : Record} (member : record ∈ records) : record.event ∈ o.events := same ▸ List.mem_map_of_mem member
  obtain ⟨f, refused, events⟩ | ⟨p, given, told⟩ := hr.told contract value raw
  · refine ⟨?_, fun p given => ?_, fun f' _ => same.trans events⟩
    · rw [count, events]
      split <;> simp
    · rw [refused] at given
      cases given
  · refine ⟨count ▸ told.length_le, fun p' given' => ?_, fun f refused => ?_⟩
    · rw [given] at given'
      cases given'
      refine ⟨fun malformed => ?_, fun record member => told.of_malformedLayer (event member),
        fun record member => told.of_fallback (event member)⟩
      obtain ⟨e, he, code⟩ := told.exists_of_containsMalformed malformed
      rw [← same] at he
      obtain ⟨record, member, rfl⟩ := List.mem_map.mp he
      exact ⟨record, member, code⟩
    · rw [given] at refused
      cases refused

/-- An option around IPv6 around a byte that the decoder of TCP refuses, which is told of though nothing in the option is
malformed; and no bytes under a number without a decoder. -/
theorem Registry.decode_records_through_option :
    let raw : Bytes := [4, 0] ++ Bytes.zeros 6 ++ [0x60, 0, 0, 0, 0, 1, 6, 64] ++ Bytes.zeros 32 ++ [0xaa]
    let clock : Option Clock := some ⟨5, 1⟩
    (∃ p record, (refusingTcp.decode .ndOptionType raw (4 : Nat)).result = .ok p ∧
      (stamp clock (refusingTcp.decode .ndOptionType raw (4 : Nat)).events).1 = [record] ∧
      record.event.code = "malformed-layer" ∧ record.event.detail?.map Detail.data = some "aa" ∧
      p.containsMalformed = false ∧ p.innermost.kind = .unknown ∧ ∃ frame ∈ p.frames, frame.kind = .redirected) ∧
    ∃ f, (refusingTcp.decode .ipNumber [] (200 : Nat)).result = .error f ∧
      (stamp clock (refusingTcp.decode .ipNumber [] (200 : Nat)).events).1.map Record.event =
        [.fallback .ipNumber (200 : Nat)] := by
  intro raw clock
  have steady : refusingTcp.Steady := plain_refusingTcp.steady
  constructor
  · obtain ⟨-, clauses, -⟩ := decode_records steady .ndOptionType (4 : Nat) raw clock
    have codes : ((stamp clock (refusingTcp.decode .ndOptionType raw (4 : Nat)).events).1.map fun record =>
        record.event.code) = ["malformed-layer"] := by decide +kernel
    have read : ((refusingTcp.decode .ndOptionType raw (4 : Nat)).result.toOption.map fun p =>
        (p.containsMalformed, p.innermost)) = some (false, .unknown [0xaa]) := by decide +kernel
    obtain ⟨record, recorded, code⟩ := List.map_eq_singleton_iff.mp codes
    cases given : (refusingTcp.decode .ndOptionType raw (4 : Nat)).result with
    | error f => rw [given] at read; cases read
    | ok p =>
      rw [given] at read
      obtain ⟨clean, innermost⟩ := Prod.mk.inj (Option.some.inj read)
      obtain ⟨-, malformedLayer, -⟩ := clauses p given
      obtain ⟨data, kept⟩ := malformedLayer record (by rw [recorded]; exact List.mem_singleton_self _) code
      rw [innermost] at data kept
      obtain impossible | ⟨-, option⟩ := kept
      · cases impossible
      · exact ⟨p, record, rfl, recorded, code, data, clean, congrArg Packet.kind innermost, option⟩
  · obtain ⟨-, -, refused⟩ := decode_records steady .ipNumber (200 : Nat) [] clock
    have error : (refusingTcp.decode .ipNumber [] (200 : Nat)).result = .error .unknownEmpty := by decide +kernel
    exact ⟨_, error, refused _ error⟩

end PacketStack
