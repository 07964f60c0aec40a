/-
Decoding loses nothing: a packet serializes to the bytes that it was decoded from, and so does every layer of it.

The bytes of an inner layer are those that its enclosing layer handed off (`Handler.descent`), a contiguous part of
the enclosing layer's own bytes. They come back whatever became of them: decoded as a layer, kept as a malformed
one, or kept as an unknown one that quarantine has put in place of a malformed one.
-/
import Mathlib.Data.List.Chain
import PacketStack.Proofs.Acceptance

namespace PacketStack

/-- The decoders that a run goes through and the bytes that each is given, the outermost first. A payload that a
layer does not look into counts as given to the unknown layer. -/
def Handler.descent (r : Registry Decoder) (handler : Handler) (raw : Bytes) : List (Handler × Bytes) :=
  (handler, raw) :: match handler with
  | .custom _ => []
  | .layer l =>
    match _h : l.dissect raw with
    | .error _ => []
    | .ok (.complete p) => p.payload?.toList.map fun _ => (.layer .unknown, l.inside raw)
    | .ok (.handoff _ contract value inner) =>
      match r.route contract value with
      | none => []
      | some route => route.handler.descent r (route.inner inner)
termination_by raw.length
decreasing_by
  have := (Layer.dissect_handoff ‹_›).2
  simp only [Route.inner, List.length_drop]
  omega

/-- The inner bytes are the part of the outer ones that the outer decoder's layer has its payload in. -/
def HandsOff (outer inner : Handler × Bytes) : Prop := ∃ l : Layer, outer.1 = .layer l ∧ inner.2 = l.inside outer.2

theorem Layer.inside_infix (l : Layer) (raw : Bytes) : l.inside raw <:+: raw := by
  have cut (front size : Nat) : (raw.drop front).take size <:+: raw :=
    (List.take_prefix ..).isInfix.trans (List.drop_suffix ..).isInfix
  cases l with
  | ipv6 => exact cut 40 _
  | udp => exact cut 8 _
  | redirected => exact (List.drop_suffix 8 raw).isInfix
  | ssh => exact cut 5 _
  | unknown => exact List.nil_infix

theorem HandsOff.isInfix {outer inner : Handler × Bytes} (h : HandsOff outer inner) : inner.2 <:+: outer.2 := by
  obtain ⟨l, -, inside⟩ := h
  rw [inside]
  exact l.inside_infix outer.2

/-! ## The bytes of the layers -/

namespace Packet

/-- The bytes of each layer, the outermost first. -/
def slices (p : Packet) : List Bytes := p.layers.map serialize

theorem slices_carrying (f : Frame) (payload : Packet) :
    (carrying f payload).slices = (carrying f payload).serialize :: payload.slices := rfl

theorem slices_unmarked (p : Packet) : p.unmarked.slices = p.slices := by
  induction p with
  | leaf l => exact congrArg (fun raw => [raw]) (serialize_unmarked (leaf l))
  | bare d => rfl
  | carrying f payload ih =>
    rw [slices_carrying, unmarked, slices_carrying, ih]
    exact congrArg (· :: payload.slices) (serialize_unmarked (carrying f payload))

theorem slices_quarantined (p : Packet) : p.quarantined.slices = p.slices := by
  cases p with
  | leaf l => rfl
  | bare d => rfl
  | carrying f payload => exact slices_unmarked (carrying f payload)

end Packet

theorem Frame.serialize_enclosed (f : Frame) (payload : Packet) :
    (f.enclosed payload).serialize = f.surround.front ++ (payload.serialize ++ f.surround.back) := by
  cases f with
  | datagram d => exact Packet.serialize_carrying ..
  | redirected h => rw [enclosed, Packet.serialize_carrying, Packet.serialize_quarantined]
  | ssh h padding mac => exact Packet.serialize_carrying ..

theorem Frame.slices_enclosed (f : Frame) (payload : Packet) :
    (f.enclosed payload).slices = (f.enclosed payload).serialize :: payload.slices := by
  cases f with
  | datagram d => rfl
  | redirected h => rw [enclosed, Packet.slices_carrying, Packet.slices_quarantined]
  | ssh h padding mac => rfl

/-! ## Down the chain -/

section
variable {r : Registry Decoder} {l : Layer} {raw : Bytes}

namespace Handler

theorem descent_custom (decode : Bytes → Except Fault Packet) (raw : Bytes) :
    (custom decode).descent r raw = [(custom decode, raw)] := by
  rw [descent]

/-- Where nothing redirects, what is handed off goes to the decoder that the table has for it. -/
theorem descent_layer (hr : r.Plain) (l : Layer) (raw : Bytes) :
    (layer l).descent r raw = (layer l, raw) :: match l.dissect raw with
      | .error _ => []
      | .ok (.complete p) => p.payload?.toList.map fun _ => (layer .unknown, l.inside raw)
      | .ok (.handoff _ contract value inner) => (r.handlerAt contract value).descent r inner := by
  rw [descent]
  split
  · next hd => rw [hd]
  · next hd => rw [hd]
  · next contract value inner hd =>
    obtain ⟨missing, route⟩ := hr.route contract value
    rw [hd]
    simp only [route, Route.inner, List.drop_zero]

/-- A refused layer has been looked into no further. -/
theorem Plain.descent_of_refused (hr : r.Plain) {handler : Handler} {f : Fault}
    (h : (handler.decode r raw).result = .error f) : handler.descent r raw = [(handler, raw)] := by
  cases handler with
  | custom decode => exact descent_custom decode raw
  | layer l =>
    change (l.decode r raw).result = .error f at h
    rw [Layer.decode_result hr] at h
    split at h
    · next hd => rw [descent_layer hr, hd]
    · cases h
    · cases h

theorem head?_descent (handler : Handler) (raw : Bytes) : (handler.descent r raw).head? = some (handler, raw) := by
  rw [descent.eq_def, List.head?_cons]

/-- Neighbours in a run are related as taking one layer apart relates them. -/
theorem isChain_descent_of (hr : r.Plain) {R : Handler × Bytes → Handler × Bytes → Prop}
    (handoff : ∀ {l raw frame contract} {value : Nat} {inner},
      l.dissect raw = .ok (.handoff frame contract value inner) → R (.layer l, raw) (r.handlerAt contract value, inner))
    (kept : ∀ {l raw p payload}, l.dissect raw = .ok (.complete p) → p.payload? = some payload →
      R (.layer l, raw) (.layer .unknown, l.inside raw))
    (handler : Handler) (raw : Bytes) : (handler.descent r raw).IsChain R := by
  induction n : raw.length using Nat.strongRecOn generalizing handler raw with
  | ind n ih =>
    cases handler with
    | custom decode => rw [descent_custom]; exact .singleton _
    | layer l =>
      cases hd : l.dissect raw with
      | error f => rw [descent_layer hr, hd]; exact .singleton _
      | ok d =>
        cases d with
        | complete p =>
          simp only [descent_layer hr, hd]
          cases carried : p.payload? with
          | none => exact .singleton _
          | some payload => exact .cons_cons (kept hd carried) (.singleton _)
        | handoff frame contract value inner =>
          have shorter := (Layer.dissect_handoff hd).2
          have below := ih inner.length (n ▸ shorter) (r.handlerAt contract value) inner rfl
          rw [descent_layer hr, hd]
          refine List.isChain_cons.mpr ⟨fun e he => ?_, below⟩
          rw [head?_descent] at he
          cases he
          exact handoff hd

/-- Every layer is given a part of what its enclosing one was given. -/
theorem isChain_descent (hr : r.Plain) (handler : Handler) (raw : Bytes) :
    (handler.descent r raw).IsChain HandsOff :=
  isChain_descent_of hr (fun hd => ⟨_, rfl, (Layer.fits_of_dissect hd).2.1⟩) (fun _ _ => ⟨_, rfl, rfl⟩) handler raw

theorem isInfix_of_mem_descent (hr : r.Plain) {handler : Handler} {e : Handler × Bytes}
    (h : e ∈ handler.descent r raw) : e.2 <:+: raw := by
  have chain := isChain_descent hr handler raw
  have head := head?_descent (r := r) handler raw
  cases descent_eq : handler.descent r raw with
  | nil => rw [descent_eq] at h; cases h
  | cons first rest =>
    rw [descent_eq] at h chain head
    cases head
    let within (outer inner : Handler × Bytes) : Prop := inner.2 <:+: outer.2
    have _ : IsTrans (Handler × Bytes) within := ⟨fun _ _ _ second third => third.trans second⟩
    have nested : (_ :: rest).Pairwise within := (chain.imp fun _ _ => HandsOff.isInfix).pairwise
    obtain rfl | below := List.mem_cons.mp h
    · exact List.infix_rfl
    · exact List.rel_of_pairwise_cons nested below

end Handler

namespace Decodes

variable {p : Packet}

/-- Every byte is put back into its place. -/
theorem serialize (h : Decodes r l raw p) : p.serialize = raw := by
  induction h with
  | complete hd => exact (Layer.fits_of_dissect hd).2.1
  | nested hd _ _ ih =>
    obtain ⟨-, -, whole⟩ := Layer.fits_of_dissect hd
    rw [Frame.serialize_enclosed, ih, whole]
  | contained hd _ =>
    obtain ⟨-, -, whole⟩ := Layer.fits_of_dissect hd
    rw [Frame.serialize_enclosed, Packet.malformed, Packet.serialize_leaf, Leaf.raw, whole]

theorem slices (hr : r.Plain) (h : Decodes r l raw p) : p.slices = ((Handler.layer l).descent r raw).map Prod.snd := by
  induction h with
  | @complete l raw p hd =>
    obtain ⟨-, whole, inside⟩ := Layer.fits_of_dissect hd
    rw [Handler.descent_layer hr, hd]
    cases p with
    | leaf l => exact congrArg (fun raw => [raw]) whole
    | bare d => exact congrArg (fun raw => [raw]) whole
    | carrying f payload =>
      obtain rfl := inside payload rfl
      rw [Packet.slices_carrying, whole]
      exact congrArg (fun inner => [raw, inner]) (Packet.serialize_leaf _)
  | @nested l l' raw inner frame contract value q hd at_ below ih =>
    have whole : (frame.enclosed q).serialize = raw := (Decodes.nested hd at_ below).serialize
    rw [Handler.descent_layer hr, hd]
    simp only [at_, Frame.slices_enclosed, whole, ih, List.map_cons]
  | @contained l raw inner frame contract value f hd refused =>
    have whole : (frame.enclosed (.malformed inner (some f))).serialize = raw := (Decodes.contained hd refused).serialize
    rw [Handler.descent_layer hr, hd]
    simp only [Handler.Plain.descent_of_refused hr refused, Frame.slices_enclosed, whole]
    exact congrArg (fun inner => [raw, inner]) (Packet.serialize_leaf _)

end Decodes

/-- **What is decoded keeps every byte**: the packet has the bytes that it was decoded from, and each layer of it has
those that its enclosing layer handed off, a contiguous part of them all. -/
theorem Layer.decode_lossless (hr : r.Plain) {p : Packet} (h : (l.decode r raw).result = .ok p) :
    p.serialize = raw ∧
    p.layers.map Packet.serialize = ((Handler.layer l).descent r raw).map Prod.snd ∧
    ((Handler.layer l).descent r raw).IsChain HandsOff ∧
    ∀ q ∈ p.layers, q.serialize <:+: raw := by
  have run := hr.decodes h
  have slices : p.layers.map Packet.serialize = _ := run.slices hr
  refine ⟨run.serialize, slices, Handler.isChain_descent hr _ raw, fun q hq => ?_⟩
  have given : q.serialize ∈ p.layers.map Packet.serialize := List.mem_map_of_mem hq
  rw [slices] at given
  obtain ⟨e, he, same⟩ := List.mem_map.mp given
  exact same ▸ Handler.isInfix_of_mem_descent hr he

/-- A redirected header option around IPv6 around a payload that the decoder of TCP refuses. -/
theorem Layer.decode_lossless_of_option :
    let embedded := [0x60, 0, 0, 0, 0, 1, 6, 64] ++ Bytes.zeros 32 ++ [0xaa]
    let raw := [4, 0] ++ Bytes.zeros 6 ++ embedded
    ∃ p, (redirected.decode Registry.refusingTcp raw).result = .ok p ∧
      p.serialize = raw ∧ p.layers.map Packet.serialize = [raw, embedded, [0xaa]] := by
  intro embedded raw
  have accepted : redirected.refusal raw = none := by decide
  obtain ⟨p, decoded⟩ := decode_of_accepted Registry.plain_refusingTcp accepted
  obtain ⟨whole, slices, -, -⟩ := decode_lossless Registry.plain_refusingTcp decoded
  have handed : ((Handler.layer redirected).descent Registry.refusingTcp raw).map Prod.snd = [raw, embedded, [0xaa]] := by
    decide +kernel
  exact ⟨p, decoded, whole, slices.trans handed⟩

end
end PacketStack
