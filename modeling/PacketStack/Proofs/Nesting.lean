/-
Decoding through a plain table.

Nothing redirects there, and every fault that comes from inside a layer is one of the packet hierarchy, so it is
contained: a nested decode always gives a packet (`Registry.nested`). What a layer's decoder gives is therefore
settled by taking that one layer apart (`Layer.decode_result`), and a successful run has one of three forms
(`Decodes`).
-/
import PacketStack.Proofs.Dissection
import PacketStack.Proofs.PlainTables
import PacketStack.Proofs.Quarantine
import PacketStack.Proofs.Splitting

namespace PacketStack

namespace Registry

/-- The decoder of nested bytes where nothing redirects. -/
def handlerAt (r : Registry Decoder) (contract : Contract) (value : Number) : Handler :=
  match r.find? contract value with
  | some (.handler h) => h
  | _ => .layer .unknown

/-- What nested bytes are decoded into where every fault is contained. -/
def nested (r : Registry Decoder) (contract : Contract) (value : Number) (inner : Bytes) : Packet :=
  match ((r.handlerAt contract value).decode r inner).result with
  | .ok p => p
  | .error f => .malformed inner (some f)

variable {r : Registry Decoder}

theorem Plain.handlerAt (hr : r.Plain) (contract : Contract) (value : Number) : (r.handlerAt contract value).Plain := by
  unfold Registry.handlerAt
  split
  · next h found =>
    obtain ⟨h', same, plain⟩ := hr _ (mem_of_find? found)
    cases same
    exact plain
  · exact .layer _

theorem Plain.route (hr : r.Plain) (contract : Contract) (value : Number) :
    ∃ missing, r.route contract value = some ⟨r.handlerAt contract value, 0, contract, value, missing⟩ := by
  unfold Registry.route Registry.routeFrom Registry.handlerAt
  split
  · next found => rw [found]; exact ⟨true, rfl⟩
  · next h found => rw [found]; exact ⟨false, rfl⟩
  · next found =>
    obtain ⟨h, same, -⟩ := hr _ (mem_of_find? found)
    cases same

end Registry

namespace Route

variable {route : Route} {raw : Bytes} {o : Outcome}

theorem contain_ok {p : Packet} (h : o.result = .ok p) : (route.contain raw o).result = .ok p := by
  unfold contain
  rw [h]

theorem contain_error {f : Fault} (h : o.result = .error f) (hf : f.ofPacket = true) :
    (route.contain raw o).result = .ok (.malformed raw (some f)) := by
  unfold contain
  rw [h]
  simp only [hf, if_true]

end Route

theorem Handler.decode_custom (r : Registry Decoder) (decode : Bytes → Except Fault Packet) (raw : Bytes) :
    (Handler.custom decode).decode r raw = { result := decode raw } := by
  rw [Handler.decode]

namespace Layer

variable {r : Registry Decoder} {l : Layer} {raw : Bytes}

/-- What is handed off is decoded as nested bytes and put into its frame. -/
theorem decode_eq (r : Registry Decoder) (l : Layer) (raw : Bytes) :
    l.decode r raw = match l.dissect raw with
      | .error f => { result := .error f }
      | .ok (.complete p) => { result := .ok p }
      | .ok (.handoff frame contract value inner) =>
        { r.decodeNested contract inner value with
          result := (r.decodeNested contract inner value).result.bind frame.enclose } := by
  rw [Layer.decode, Handler.decode]
  split
  · next hd => rw [hd]
  · next hd => rw [hd]
  · next hd =>
    rw [hd]
    simp only [Registry.decodeNested]
    split <;> rfl

theorem decode_refused {f : Fault} (h : l.dissect raw = .error f) : l.decode r raw = { result := .error f } := by
  rw [decode_eq, h]

theorem decode_complete {p : Packet} (h : l.dissect raw = .ok (.complete p)) : l.decode r raw = { result := .ok p } := by
  rw [decode_eq, h]

theorem decode_handoff {frame : Frame} {contract : Contract} {value : Nat} {inner : Bytes}
    (h : l.dissect raw = .ok (.handoff frame contract value inner)) :
    l.decode r raw = { r.decodeNested contract inner value with
      result := (r.decodeNested contract inner value).result.bind frame.enclose } := by
  rw [decode_eq, h]

end Layer

/-! ## Nested bytes under one entry -/

namespace Registry

variable {r : Registry Decoder} {contract : Contract} {value : Number} {raw : Bytes}

/-- A decoder that does its own work is given all of the bytes, and what it cannot decode is contained. -/
theorem decodeNested_of_handler {handler : Handler} (found : r.find? contract value = some (.handler handler)) :
    r.decodeNested contract raw value =
      Route.contain ⟨handler, 0, contract, value, false⟩ raw (handler.decode r raw) := by
  have route : r.route contract value = some ⟨handler, 0, contract, value, false⟩ := by
    rw [Registry.route, routeFrom, found]
  rw [Registry.decodeNested, route]
  rfl

/-- Without a decoder the bytes are kept, and an event tells of it. -/
theorem decodeNested_of_missing (missing : r.find? contract value = none) (present : raw ≠ []) :
    r.decodeNested contract raw value = { result := .ok (.unknown raw), events := [.fallback contract value] } := by
  have route : r.route contract value = some ⟨.layer .unknown, 0, contract, value, true⟩ := by
    rw [Registry.route, routeFrom, missing]
  rw [Registry.decodeNested, route]
  change Route.contain _ raw (Layer.unknown.decode r raw) = _
  rw [Layer.decode_complete (Layer.Splits.unknown present).dissect]
  rfl

end Registry

/-- A frame around a payload. A redirected header option has its payload quarantined. -/
def Frame.enclosed (f : Frame) (payload : Packet) : Packet :=
  match f with
  | redirected _ => .carrying f payload.quarantined
  | _ => .carrying f payload

theorem Frame.enclose_eq (f : Frame) (payload : Packet) : f.enclose payload = .ok (f.enclosed payload) := by
  cases f with
  | datagram d => rfl
  | redirected h => simp only [enclose, Packet.quarantine_eq, enclosed]; rfl
  | ssh h padding mac => rfl

/-! ## Nothing inside a layer makes it fail -/

theorem Layer.ofPacket_of_refusal {l : Layer} {raw : Bytes} {c : FaultClass} (h : l.refusal raw = some c) :
    c.ofPacket = true := by
  cases l <;> simp only [refusal] at h <;> (repeat' split at h) <;> cases h <;> rfl

section
variable {r : Registry Decoder}

theorem Registry.Plain.decodeNested_of_contained (hr : r.Plain) (contract : Contract) (value : Number) (inner : Bytes)
    (contained : ∀ f, ((r.handlerAt contract value).decode r inner).result = .error f → f.ofPacket = true) :
    (r.decodeNested contract inner value).result = .ok (r.nested contract value inner) := by
  obtain ⟨missing, route⟩ := hr.route contract value
  simp only [Registry.decodeNested, route, Route.inner, List.drop_zero, Registry.nested]
  cases h : ((r.handlerAt contract value).decode r inner).result with
  | error f => exact Route.contain_error h (contained f h)
  | ok p => exact Route.contain_ok h

/-- A fault of a plain decoder is one of the packet hierarchy. -/
theorem Handler.Plain.ofPacket (hr : r.Plain) {h : Handler} (hh : h.Plain) {raw : Bytes} {f : Fault}
    (refused : (h.decode r raw).result = .error f) : f.ofPacket = true := by
  -- A nested decoder has fewer bytes to decode, so that its own faults are contained already.
  induction n : raw.length using Nat.strongRecOn generalizing h raw f with
  | ind n ih =>
    cases hh with
    | refusing answers =>
      obtain ⟨f', error, ofPacket⟩ := answers raw
      rw [decode_custom, error] at refused
      cases refused
      exact ofPacket
    | layer l =>
      change (l.decode r raw).result = .error f at refused
      cases hd : l.dissect raw with
      | error f' =>
        rw [Layer.decode_refused hd] at refused
        cases refused
        exact Layer.ofPacket_of_refusal (Layer.refusal_of_dissect hd)
      | ok d =>
        cases d with
        | complete p =>
          rw [Layer.decode_complete hd] at refused
          cases refused
        | handoff frame contract value inner =>
          have shorter := (Layer.dissect_handoff hd).2
          have given := hr.decodeNested_of_contained contract value inner fun f' error =>
            ih inner.length (n ▸ shorter) (hr.handlerAt contract value) error rfl
          rw [Layer.decode_handoff hd] at refused
          simp only [given] at refused
          change frame.enclose _ = .error f at refused
          rw [Frame.enclose_eq] at refused
          cases refused

theorem Registry.Plain.decodeNested (hr : r.Plain) (contract : Contract) (value : Number) (inner : Bytes) :
    (r.decodeNested contract inner value).result = .ok (r.nested contract value inner) :=
  hr.decodeNested_of_contained contract value inner fun _ refused => (hr.handlerAt contract value).ofPacket hr refused

/-- What a layer's decoder gives, from taking that layer apart. -/
theorem Layer.decode_result (hr : r.Plain) (l : Layer) (raw : Bytes) :
    (l.decode r raw).result = match l.dissect raw with
      | .error f => .error f
      | .ok (.complete p) => .ok p
      | .ok (.handoff frame contract value inner) => .ok (frame.enclosed (r.nested contract value inner)) := by
  split
  · next hd => rw [decode_refused hd]
  · next hd => rw [decode_complete hd]
  · next frame contract value inner hd =>
    rw [decode_handoff hd]
    simp only [hr.decodeNested]
    exact frame.enclose_eq _

theorem Layer.result_of_handoff (hr : r.Plain) {l : Layer} {raw inner : Bytes} {frame : Frame} {contract : Contract}
    {value : Nat} (h : l.dissect raw = .ok (.handoff frame contract value inner)) :
    (l.decode r raw).result = .ok (frame.enclosed (r.nested contract value inner)) := by
  rw [decode_result hr, h]

theorem Layer.exists_dissect_of_decode {l : Layer} {raw : Bytes} {p : Packet} (h : (l.decode r raw).result = .ok p) :
    ∃ d, l.dissect raw = .ok d := by
  cases hd : l.dissect raw with
  | error f => rw [decode_refused hd] at h; cases h
  | ok d => exact ⟨d, rfl⟩

/-- The runs of a layer's decoder that give a packet. -/
inductive Decodes (r : Registry Decoder) : Layer → Bytes → Packet → Prop
  /-- Nothing is handed off. -/
  | complete {l : Layer} {raw : Bytes} {p : Packet} : l.dissect raw = .ok (.complete p) → Decodes r l raw p
  /-- What is handed off is another layer. -/
  | nested {l l' : Layer} {raw inner : Bytes} {frame : Frame} {contract : Contract} {value : Nat} {q : Packet} :
      l.dissect raw = .ok (.handoff frame contract value inner) → r.handlerAt contract value = .layer l' →
      Decodes r l' inner q → Decodes r l raw (frame.enclosed q)
  /-- What is handed off is refused and kept. -/
  | contained {l : Layer} {raw inner : Bytes} {frame : Frame} {contract : Contract} {value : Nat} {f : Fault} :
      l.dissect raw = .ok (.handoff frame contract value inner) →
      ((r.handlerAt contract value).decode r inner).result = .error f →
      Decodes r l raw (frame.enclosed (.malformed inner (some f)))

theorem Registry.Plain.decodes (hr : r.Plain) {l : Layer} {raw : Bytes} {p : Packet}
    (h : (l.decode r raw).result = .ok p) : Decodes r l raw p := by
  induction n : raw.length using Nat.strongRecOn generalizing l raw p with
  | ind n ih =>
    rw [Layer.decode_result hr] at h
    split at h
    · cases h
    · next hd => cases h; exact .complete hd
    · next frame contract value inner hd =>
      have shorter := (Layer.dissect_handoff hd).2
      cases h
      unfold Registry.nested
      split
      · next q given =>
        have plain := hr.handlerAt contract value
        cases at_ : r.handlerAt contract value with
        | layer l' =>
          rw [at_] at given
          exact .nested hd at_ (ih inner.length (n ▸ shorter) given rfl)
        | custom decode =>
          rw [at_] at given plain
          cases plain with
          | refusing answers =>
            obtain ⟨f, error, -⟩ := answers inner
            rw [Handler.decode_custom, error] at given
            cases given
      · next refused => exact .contained hd refused

end
end PacketStack
