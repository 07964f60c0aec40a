/-
How a run of decoders ends, and what becomes of the fault at its end.

Decoding goes down through the layers and comes back up. On the way down each layer passes its own checks and hands its
inner bytes on, until a layer is complete, or nobody claims the bytes, or their decoder refuses them. `Descends` says this
much of a run and no more: the frames that it went through, and its `Ending`. All else follows from these two
(`Descends.decode`). A fault of the packet hierarchy is kept where it arose, any other fault is what the whole run gives,
and on the way up nothing is refused any more: frames are put around what there is.

An ending is found for every accepted layer where the entries of the table are layers and decoders that always fail
(`Registry.Steady.descends`), so that what holds of each ending holds of decoding.
-/
import PacketStack.Proofs.Nesting

namespace PacketStack

/-- A layer's decoder, or one that answers any bytes with a fault, of the packet hierarchy or not. -/
inductive Handler.Steady : Handler → Prop
  | layer (l : Layer) : Steady (.layer l)
  | failing {decode : Bytes → Except Fault Packet} (h : ∀ raw, ∃ f, decode raw = .error f) : Steady (.custom decode)

/-- Every entry is a steady decoder, under whatever contract and number. -/
def Registry.Steady (r : Registry Decoder) : Prop := ∀ e ∈ r.entries, ∃ h, e.2 = .handler h ∧ h.Steady

/-- The decoder refuses these bytes by itself, before anything nested is decoded. -/
def Handler.Refuses (handler : Handler) (raw : Bytes) (f : Fault) : Prop :=
  match handler with
  | .layer l => l.dissect raw = .error f
  | .custom decode => decode raw = .error f

inductive Ending
  /-- The innermost layer hands nothing on. -/
  | complete (p : Packet)
  /-- There is no decoder for the bytes that were handed on last. -/
  | unclaimed (contract : Contract) (value : Number) (inner : Bytes)
  /-- The decoder of the bytes that were handed on last refuses them. -/
  | refused (contract : Contract) (value : Number) (inner : Bytes) (fault : Fault)

/-- The way down from a layer that passes its own checks: the frames, the outermost first, and the ending. -/
inductive Descends (r : Registry Decoder) : Layer → Bytes → List Frame → Ending → Prop
  | complete {l : Layer} {raw : Bytes} {p : Packet} :
      l.dissect raw = .ok (.complete p) → Descends r l raw [] (.complete p)
  | unclaimed {l : Layer} {raw inner : Bytes} {frame : Frame} {contract : Contract} {value : Nat} :
      l.dissect raw = .ok (.handoff frame contract value inner) → r.find? contract value = none →
      Descends r l raw [frame] (.unclaimed contract value inner)
  | refused {l : Layer} {raw inner : Bytes} {frame : Frame} {contract : Contract} {value : Nat} {handler : Handler}
      {f : Fault} :
      l.dissect raw = .ok (.handoff frame contract value inner) → r.find? contract value = some (.handler handler) →
      handler.Refuses inner f → Descends r l raw [frame] (.refused contract value inner f)
  | deeper {l l' : Layer} {raw inner : Bytes} {frame : Frame} {contract : Contract} {value : Nat} {frames : List Frame}
      {ending : Ending} :
      l.dissect raw = .ok (.handoff frame contract value inner) → r.find? contract value = some (.layer l') →
      Descends r l' inner frames ending → Descends r l raw (frame :: frames) ending

/-- A packet in frames, the outermost first. What an option embeds is quarantined on the way. -/
def Packet.within (core : Packet) (frames : List Frame) : Packet := frames.foldr Frame.enclosed core

/-- What a run with these frames and this ending gives, and what it tells of. -/
def Ending.outcome (frames : List Frame) : Ending → Outcome
  | complete p => { result := .ok (p.within frames) }
  | unclaimed contract value inner =>
    { result := .ok ((Packet.unknown inner).within frames), events := [.fallback contract value] }
  | refused contract value inner f =>
    if f.ofPacket then
      { result := .ok ((Packet.malformed inner (some f)).within frames)
        events := [.malformedLayer contract value inner f] }
    else { result := .error f }

/-! ## The way down -/

section
variable {r : Registry Decoder} {l : Layer} {raw : Bytes} {frames : List Frame} {ending : Ending}

theorem Handler.Plain.steady {handler : Handler} (h : handler.Plain) : handler.Steady := by
  cases h with
  | layer l => exact .layer l
  | refusing answers =>
    refine .failing fun raw => ?_
    obtain ⟨f, error, -⟩ := answers raw
    exact ⟨f, error⟩

theorem Registry.Plain.steady (hr : r.Plain) : r.Steady := by
  intro e he
  obtain ⟨handler, same, plain⟩ := hr e he
  exact ⟨handler, same, plain.steady⟩

theorem Registry.Steady.register (hr : r.Steady) (contract : Contract) (value : Number) {handler : Handler}
    (steady : handler.Steady) (replace : Bool) :
    (r.register contract value (.handler handler) replace).registry.Steady := by
  intro e he
  obtain rfl | he := mem_register he
  · exact ⟨handler, rfl, steady⟩
  · exact hr e he

theorem Registry.Steady.handler_of_find? (hr : r.Steady) {contract : Contract} {value : Number} {d : Decoder}
    (found : r.find? contract value = some d) : ∃ handler, d = .handler handler ∧ handler.Steady :=
  hr _ (mem_of_find? found)

theorem Handler.decode_of_refuses {handler : Handler} {f : Fault} (h : handler.Refuses raw f) :
    handler.decode r raw = { result := .error f } := by
  cases handler with
  | layer l => exact Layer.decode_refused h
  | custom decode =>
    have error : decode raw = .error f := h
    rw [decode_custom, error]

/-- Every layer that passes its own checks has a way down. -/
theorem Registry.Steady.descends (hr : r.Steady) {d : Dissection} (h : l.dissect raw = .ok d) :
    ∃ frames ending, Descends r l raw frames ending := by
  -- On the number of bytes: entries may lead back to the same layer, but each one has fewer bytes left to read.
  induction n : raw.length using Nat.strongRecOn generalizing l raw d with
  | ind n ih =>
    cases d with
    | complete p => exact ⟨[], _, .complete h⟩
    | handoff frame contract value inner =>
      cases found : r.find? contract value with
      | none => exact ⟨[frame], _, .unclaimed h found⟩
      | some d =>
        obtain ⟨handler, rfl, steady⟩ := hr.handler_of_find? found
        cases steady with
        | failing fails =>
          obtain ⟨f, error⟩ := fails inner
          exact ⟨[frame], _, .refused h found error⟩
        | layer l' =>
          cases hd : l'.dissect inner with
          | error f => exact ⟨[frame], _, .refused h found hd⟩
          | ok d' =>
            have shorter := (Layer.dissect_handoff h).2
            obtain ⟨frames, ending, below⟩ := ih inner.length (n ▸ shorter) hd rfl
            exact ⟨frame :: frames, ending, .deeper h found below⟩

/-! ## The way up -/

namespace Ending

variable {contract : Contract} {value : Number} {inner : Bytes} {f : Fault}

theorem outcome_of_ofPacket (frames : List Frame) (contained : f.ofPacket = true) :
    outcome frames (refused contract value inner f) =
      { result := .ok ((Packet.malformed inner (some f)).within frames)
        events := [.malformedLayer contract value inner f] } := if_pos contained

theorem outcome_of_not_ofPacket (frames : List Frame) (passes : f.ofPacket = false) :
    outcome frames (refused contract value inner f) = { result := .error f } := if_neg (by rw [passes]; decide)

/-- A fault that comes up is the one that the way down ended with, and passes through every layer. -/
theorem eq_refused_of_error {ending : Ending} (given : (ending.outcome frames).result = .error f) :
    f.ofPacket = false ∧ ∃ contract value inner, ending = refused contract value inner f := by
  cases ending with
  | complete p => cases given
  | unclaimed contract value inner => cases given
  | refused contract value inner f' =>
    cases contained : f'.ofPacket with
    | true =>
      rw [outcome_of_ofPacket frames contained] at given
      cases given
    | false =>
      rw [outcome_of_not_ofPacket frames contained] at given
      cases given
      exact ⟨contained, contract, value, inner, rfl⟩

/-- Nothing that comes up is contained a second time. -/
theorem contain_outcome (route : Route) (present : route.missing = false) :
    route.contain raw (ending.outcome frames) = ending.outcome frames := by
  unfold Route.contain
  rw [present]
  cases ending with
  | complete p => rfl
  | unclaimed contract value inner => rfl
  | refused contract value inner f =>
    cases contained : f.ofPacket with
    | true => rw [outcome_of_ofPacket frames contained]; rfl
    | false => simp only [outcome_of_not_ofPacket frames contained, contained]; rfl

theorem enclose_outcome (frame : Frame) (frames : List Frame) (ending : Ending) :
    { ending.outcome frames with result := (ending.outcome frames).result.bind frame.enclose } =
      ending.outcome (frame :: frames) := by
  have around (p : Packet) : (Except.ok (p.within frames)).bind frame.enclose = .ok (p.within (frame :: frames)) :=
    frame.enclose_eq _
  cases ending with
  | complete p => simp only [outcome, around]
  | unclaimed contract value inner => simp only [outcome, around]
  | refused contract value inner f =>
    cases contained : f.ofPacket with
    | true => simp only [outcome_of_ofPacket _ contained, around]
    | false => simp only [outcome_of_not_ofPacket _ contained]; rfl

end Ending

/-- **A run is settled by its way down.** -/
theorem Descends.decode (h : Descends r l raw frames ending) : l.decode r raw = ending.outcome frames := by
  induction h with
  | complete hd => exact Layer.decode_complete hd
  | @unclaimed l raw inner frame contract value hd missing =>
    rw [Layer.decode_handoff hd, Registry.decodeNested_of_missing missing (Layer.dissect_handoff hd).1]
    exact Ending.enclose_outcome frame [] (.unclaimed contract value inner)
  | @refused l raw inner frame contract value handler f hd found refuses =>
    have kept : r.decodeNested contract inner value = Ending.outcome [] (.refused contract value inner f) := by
      rw [Registry.decodeNested_of_handler found, Handler.decode_of_refuses refuses]
      cases contained : f.ofPacket with
      | true => simp only [Route.contain, Ending.outcome_of_ofPacket _ contained, contained]; rfl
      | false => simp only [Route.contain, Ending.outcome_of_not_ofPacket _ contained, contained]; rfl
    rw [Layer.decode_handoff hd, kept]
    exact Ending.enclose_outcome frame [] _
  | @deeper l l' raw inner frame contract value frames ending hd found below ih =>
    have same : r.decodeNested contract inner value = ending.outcome frames := by
      rw [Registry.decodeNested_of_handler found]
      change Route.contain _ inner (l'.decode r inner) = _
      rw [ih, Ending.contain_outcome _ rfl]
    rw [Layer.decode_handoff hd, same]
    exact Ending.enclose_outcome frame frames ending

end

/-! ## The innermost layer -/

namespace Packet

/-- The frames around the innermost layer, the outermost first. -/
def frames : Packet → List Frame
  | carrying f payload => f :: payload.frames
  | _ => []

/-- The layer that carries nothing. -/
def innermost : Packet → Packet
  | carrying _ payload => payload.innermost
  | p => p

/-- No frame is malformed, so that one layer alone can be. -/
theorem containsMalformed_eq (p : Packet) : p.containsMalformed = p.innermost.isMalformed := by
  induction p with
  | leaf l => rfl
  | bare d => rfl
  | carrying f payload ih => exact ih

theorem frames_unmarked (p : Packet) : p.unmarked.frames = p.frames := by
  induction p with
  | leaf l => rfl
  | bare d => rfl
  | carrying f payload ih => exact congrArg (f :: ·) ih

theorem innermost_unmarked (p : Packet) : p.unmarked.innermost = p.innermost.unmarked := by
  induction p with
  | leaf l => rfl
  | bare d => rfl
  | carrying f payload ih => exact ih

theorem frames_enclosed (f : Frame) (payload : Packet) : (f.enclosed payload).frames = f :: payload.frames := by
  cases f with
  | datagram d => rfl
  | ssh h padding mac => rfl
  | redirected h =>
    cases payload with
    | leaf l => rfl
    | bare d => rfl
    | carrying f' inner => exact congrArg (fun frames => .redirected h :: f' :: frames) (frames_unmarked inner)

/-- An option unmarks what it does not carry itself. -/
theorem innermost_enclosed (f : Frame) (payload : Packet) : (f.enclosed payload).innermost =
    if f.kind = .redirected ∧ payload.frames ≠ [] then payload.innermost.unmarked else payload.innermost := by
  cases f with
  | datagram d => cases d <;> rfl
  | ssh h padding mac => rfl
  | redirected h =>
    cases payload with
    | leaf l => rfl
    | bare d => rfl
    | carrying f' inner => exact innermost_unmarked inner

theorem frames_within (l : Leaf) (frames : List Frame) : ((leaf l).within frames).frames = frames := by
  induction frames with
  | nil => rfl
  | cons f rest ih => exact (frames_enclosed f _).trans (congrArg (f :: ·) ih)

/-- A leaf comes up as it is, unless an option has it further inside than directly. -/
theorem innermost_within (l : Leaf) (frames : List Frame) : ((leaf l).within frames).innermost =
    if ∃ f ∈ frames.dropLast, f.kind = .redirected then unknown l.raw else leaf l := by
  induction frames with
  | nil => simp [within, innermost]
  | cons f rest ih =>
    have step : ((leaf l).within (f :: rest)).innermost = _ := innermost_enclosed f ((leaf l).within rest)
    rw [step, frames_within, ih]
    -- The last frame has the leaf directly inside, where even an option keeps it as it is.
    cases rest with
    | nil => simp
    | cons g rest =>
      simp only [List.dropLast_cons_cons, List.exists_mem_cons_iff]
      by_cases option : f.kind = .redirected
      · simp only [option, true_and, true_or, ne_eq, reduceCtorEq, not_false_eq_true, if_true]
        split <;> rfl
      · simp only [option, false_and, false_or, if_false]

end Packet

/-! ## Which faults are contained -/

section
variable {r : Registry Decoder}

/-- **Faults outside of the packet hierarchy are never contained, all others always are.** A fault of the former kind is
what decoding gives exactly if the way down ends at a decoder that refuses its bytes with it, and nothing is told then.
A fault of the latter kind, wherever it ends the way down, leaves a packet with those very bytes innermost: malformed
with the fault as its cause, or unknown if an option has them further inside than directly. -/
theorem Layer.decode_containment (hr : r.Steady) (l : Layer) (raw : Bytes) :
    (∀ f, f.ofPacket = false → ((l.decode r raw).result = .error f ↔
      ∃ frames contract value inner, Descends r l raw frames (.refused contract value inner f))) ∧
    ∀ frames contract value inner f, Descends r l raw frames (.refused contract value inner f) →
      (f.ofPacket = false → (l.decode r raw).events = []) ∧
      (f.ofPacket = true → ∃ p, (l.decode r raw).result = .ok p ∧ p.frames = frames ∧
        p.innermost =
          if ∃ frame ∈ frames.dropLast, frame.kind = .redirected then .unknown inner else .malformed inner (some f)) := by
  refine ⟨fun f passes => ⟨fun thrown => ?_, ?_⟩, fun frames contract value inner f down =>
    ⟨fun passes => ?_, fun contained => ?_⟩⟩
  · cases hd : l.dissect raw with
    | error f' =>
      -- What a layer itself refuses is a fault of the packet hierarchy.
      rw [decode_refused hd] at thrown
      cases thrown
      have own : f.ofPacket = true := ofPacket_of_refusal (refusal_of_dissect hd)
      cases passes.symm.trans own
    | ok d =>
      obtain ⟨frames, ending, down⟩ := hr.descends hd
      rw [down.decode] at thrown
      obtain ⟨-, contract, value, inner, rfl⟩ := Ending.eq_refused_of_error thrown
      exact ⟨frames, contract, value, inner, down⟩
  · rintro ⟨frames, contract, value, inner, down⟩
    rw [down.decode, Ending.outcome_of_not_ofPacket frames passes]
  · rw [down.decode, Ending.outcome_of_not_ofPacket frames passes]
  · rw [down.decode, Ending.outcome_of_ofPacket frames contained]
    exact ⟨_, rfl, Packet.frames_within _ frames, Packet.innermost_within _ frames⟩

/-- An option around IPv6 around a byte whose decoder throws what is no fault of the packet hierarchy; the same where it
throws one that is; and that IPv6 layer without the option. -/
theorem Layer.decode_containment_through_option :
    let passing := Fault.raise ⟨.general, "out of memory"⟩ none
    let contained := Fault.raise ⟨.packet, "no such thing"⟩ none
    let failing (f : Fault) := (Registry.builtIn.register .ipNumber 6 (.handler (.answer (.error f))) false).registry
    let embedded : Bytes := [0x60, 0, 0, 0, 0, 1, 6, 64] ++ Bytes.zeros 32 ++ [0xaa]
    let raw : Bytes := [4, 0] ++ Bytes.zeros 6 ++ embedded
    ((redirected.decode (failing passing) raw).result = .error passing ∧
      (redirected.decode (failing passing) raw).events = []) ∧
    (∃ p, (redirected.decode (failing contained) raw).result = .ok p ∧ p.frames.length = 2 ∧
      p.innermost = .unknown [0xaa]) ∧
    ∃ p, (ipv6.decode (failing contained) embedded).result = .ok p ∧ p.innermost = .malformed [0xaa] (some contained) := by
  intro passing contained failing embedded raw
  have steady (f : Fault) : (failing f).Steady :=
    Registry.plain_builtIn.steady.register .ipNumber 6 (.failing fun _ => ⟨f, rfl⟩) false
  let address : Ipv6.Address := ⟨Bytes.zeros 16, rfl⟩
  let inside : Frame := .datagram (.ipv6 ⟨6, 0, 0, 1, 6, 64, address, address⟩ [])
  let option : Frame := .redirected ⟨0, ⟨Bytes.zeros 6, rfl⟩⟩
  have found (f : Fault) : (failing f).find? .ipNumber (6 : Nat) = some (.handler (.answer (.error f))) := rfl
  have below (f : Fault) : Descends (failing f) ipv6 embedded [inside] (.refused .ipNumber (6 : Nat) [0xaa] f) :=
    .refused rfl (found f) rfl
  have down (f : Fault) : Descends (failing f) redirected raw [option, inside] (.refused .ipNumber (6 : Nat) [0xaa] f) :=
    .deeper rfl rfl (below f)
  refine ⟨⟨?_, ?_⟩, ?_, ?_⟩
  · exact ((decode_containment (steady passing) redirected raw).1 passing rfl).mpr ⟨_, _, _, _, down passing⟩
  · exact ((decode_containment (steady passing) redirected raw).2 _ _ _ _ _ (down passing)).1 rfl
  · obtain ⟨p, decoded, frames, innermost⟩ :=
      ((decode_containment (steady contained) redirected raw).2 _ _ _ _ _ (down contained)).2 rfl
    exact ⟨p, decoded, congrArg List.length frames, innermost⟩
  · obtain ⟨p, decoded, -, innermost⟩ :=
      ((decode_containment (steady contained) ipv6 embedded).2 _ _ _ _ _ (below contained)).2 rfl
    exact ⟨p, decoded, innermost⟩

end

end PacketStack
