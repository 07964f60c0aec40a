/-
How deep decoding goes: at most one layer for every five bytes.

The table may lead from any layer to any other and back into the same one, so that the order of the layers bounds
nothing. What does is the bytes. Every header has at least five of them, and what a layer hands on lies behind its
header and is never empty (`Handler.isChain_narrows`). A run therefore visits at most as many decoders as the bytes
have room for (`Handler.length_descent_le`), and a decoder that gives up below that depth gives the same result
(`Handler.decodeWithin_eq`).
-/
import PacketStack.Proofs.Lossless
import PacketStack.Proofs.Splitting

namespace PacketStack

/-- Some bytes are handed on, and a header's worth fewer than there were. -/
def Narrows (outer inner : Handler × Bytes) : Prop := inner.2 ≠ [] ∧ inner.2.length + 5 ≤ outer.2.length

/-- Decodes with at most `depth` decoders inside each other, and gives nothing where more are called for. -/
def Handler.decodeWithin (r : Registry Decoder) : Nat → Handler → Bytes → Option Outcome
  | 0, _, _ => none
  | _ + 1, .custom decode, raw => some { result := decode raw }
  | depth + 1, .layer l, raw =>
    match l.dissect raw with
    | .error f => some { result := .error f }
    | .ok (.complete p) => some { result := .ok p }
    | .ok (.handoff frame contract value inner) =>
      match r.route contract value with
      | none => some { result := .error .endless }
      | some route => do
        let below ← decodeWithin r depth route.handler (route.inner inner)
        let o := route.contain (route.inner inner) below
        some { o with result := o.result.bind frame.enclose }

/-! ## One layer -/

namespace Layer

variable {l : Layer} {raw : Bytes}

theorem length_inside (present : l.inside raw ≠ []) : (l.inside raw).length + 5 ≤ raw.length := by
  have left : 0 < (l.inside raw).length := List.length_pos_iff.mpr present
  cases l with
  | unknown => cases left
  | ipv6 | udp | redirected | ssh =>
    simp only [inside, List.length_take, List.length_drop] at left ⊢
    omega

theorem narrows_of_handoff {frame : Frame} {contract : Contract} {value : Nat} {inner : Bytes}
    (h : l.dissect raw = .ok (.handoff frame contract value inner)) (handler : Handler) :
    Narrows (.layer l, raw) (handler, inner) := by
  obtain ⟨present, -⟩ := dissect_handoff h
  obtain ⟨-, rfl, -⟩ := fits_of_dissect h
  exact ⟨present, length_inside present⟩

/-- The only payload that a layer does not look into is the one of UDP. -/
theorem narrows_of_complete {p payload : Packet} (h : l.dissect raw = .ok (.complete p))
    (carried : p.payload? = some payload) (handler : Handler) : Narrows (.layer l, raw) (handler, l.inside raw) := by
  obtain ⟨-, -, unlooked⟩ := fits_of_dissect h
  have same := unlooked payload carried
  cases splits_of_dissect h with
  | ipv6Bare _ _ | udpBare _ _ | unknown _ => cases carried
  | udp _ _ present =>
    cases carried
    cases same
    exact ⟨present, length_inside present⟩

theorem ne_nil_of_dissect {d : Dissection} (h : l.dissect raw = .ok d) : raw ≠ [] := by
  rintro rfl
  obtain ⟨accepted, -⟩ := fits_of_dissect h
  cases l <;> cases accepted

end Layer

/-! ## A run -/

/-- Five bytes for each step down, and one for the last decoder. -/
theorem length_lt_of_isChain {e : Handler × Bytes} {rest : List (Handler × Bytes)} (h : (e :: rest).IsChain Narrows)
    (present : e.2 ≠ []) : 5 * rest.length < e.2.length := by
  induction rest generalizing e with
  | nil => exact List.length_pos_iff.mpr present
  | cons next rest ih =>
    obtain ⟨⟨present, shorter⟩, below⟩ := List.isChain_cons_cons.mp h
    have := ih below present
    rw [List.length_cons]
    omega

section
variable {r : Registry Decoder}

namespace Handler

theorem isChain_narrows (hr : r.Plain) (handler : Handler) (raw : Bytes) :
    (handler.descent r raw).IsChain Narrows :=
  isChain_descent_of hr (fun hd => Layer.narrows_of_handoff hd _) (fun hd carried => Layer.narrows_of_complete hd carried _)
    handler raw

theorem length_descent_le (hr : r.Plain) (handler : Handler) {raw : Bytes} (present : raw ≠ []) :
    (handler.descent r raw).length ≤ (raw.length + 4) / 5 := by
  have chain := isChain_narrows hr handler raw
  have head := head?_descent (r := r) handler raw
  cases descent_eq : handler.descent r raw with
  | nil => exact Nat.zero_le _
  | cons first rest =>
    rw [descent_eq] at chain head
    cases head
    have five : 5 * rest.length < raw.length := length_lt_of_isChain chain present
    rw [List.length_cons]
    omega

/-- A depth that the bytes leave room for is never used up. -/
theorem decodeWithin_eq (r : Registry Decoder) {depth : Nat} (handler : Handler) (raw : Bytes) (room : 0 < depth)
    (enough : raw.length ≤ 5 * depth) : handler.decodeWithin r depth raw = some (handler.decode r raw) := by
  induction depth generalizing handler raw with
  | zero => cases room
  | succ depth ih =>
    cases handler with
    | custom decode => rw [decodeWithin, decode_custom]
    | layer l =>
      rw [decodeWithin, Handler.decode]
      cases hd : l.dissect raw with
      | error f => rfl
      | ok d =>
        cases d with
        | complete p => rfl
        | handoff frame contract value inner =>
          simp only
          cases r.route contract value with
          | none => rfl
          | some route =>
            -- Handing anything on takes six bytes, so that the depth that they need is not the last one.
            obtain ⟨present, shorter⟩ := Layer.narrows_of_handoff hd route.handler
            have left : 0 < inner.length := List.length_pos_iff.mpr present
            have skipped : (route.inner inner).length ≤ inner.length := by
              rw [Route.inner, List.length_drop]
              exact Nat.sub_le ..
            simp only at shorter
            simp only [ih route.handler (route.inner inner) (by omega) (by omega)]
            rfl

/-- The fault of a run without an end is none of the packet hierarchy, and a plain decoder gives no others. -/
theorem Plain.ne_endless (hr : r.Plain) {h : Handler} (hh : h.Plain) (raw : Bytes) :
    (h.decode r raw).result ≠ .error .endless := by
  intro endless
  have contained := hh.ofPacket hr endless
  cases contained

end Handler

/-- **Decoding ends, and is no deeper than one decoder for every five bytes.** Allowing for that many inside each other
gives what decoding gives without a limit, and that is never the fault of a run without an end. Each decoder hands on
some bytes, and fewer than it was given. A packet that comes out has no more layers than that. -/
theorem Layer.decode_nesting_bound (hr : r.Plain) (l : Layer) (raw : Bytes) :
    (∀ depth, 0 < depth → raw.length ≤ 5 * depth →
      (Handler.layer l).decodeWithin r depth raw = some (l.decode r raw)) ∧
    (l.decode r raw).result ≠ .error .endless ∧
    ((Handler.layer l).descent r raw).IsChain (fun outer inner => inner.2 ≠ [] ∧ inner.2.length < outer.2.length) ∧
    (∀ frame contract value inner, l.dissect raw = .ok (.handoff frame contract value inner) →
      inner ≠ [] ∧ inner.length < raw.length) ∧
    ∀ p, (l.decode r raw).result = .ok p → p.layers.length ≤ (raw.length + 4) / 5 := by
  refine ⟨fun depth => Handler.decodeWithin_eq r (.layer l) raw, Handler.Plain.ne_endless hr (.layer l) raw, ?_,
    fun frame contract value inner => dissect_handoff, ?_⟩
  · refine (Handler.isChain_narrows hr (.layer l) raw).imp fun outer inner => ?_
    rintro ⟨present, shorter⟩
    exact ⟨present, by omega⟩
  · intro p decoded
    have visited : p.layers.length = ((Handler.layer l).descent r raw).length := by
      have slices := congrArg List.length ((hr.decodes decoded).slices hr)
      rwa [Packet.slices, List.length_map, List.length_map] at slices
    obtain ⟨d, accepted⟩ := exists_dissect_of_decode decoded
    rw [visited]
    exact Handler.length_descent_le hr (.layer l) (ne_nil_of_dissect accepted)

end

/-- The built-in table with the SSH binary packet under a message number of its own, so that it nests in itself. -/
def Registry.nestingSsh : Registry Decoder := (builtIn.register .sshMessageNumber 0 (.layer .ssh) false).registry

/-- An SSH packet in an SSH packet: eleven bytes come to three layers, and a depth of two is too little for them. -/
theorem Layer.decode_nesting_bound_reached :
    let raw := [0, 0, 0, 7, 0, 0, 0, 0, 2, 0, 9]
    ∃ p, (ssh.decode Registry.nestingSsh raw).result = .ok p ∧ p.layers.length = (raw.length + 4) / 5 ∧
      (Handler.layer ssh).decodeWithin Registry.nestingSsh 3 raw = some (ssh.decode Registry.nestingSsh raw) ∧
      ((Handler.layer ssh).decodeWithin Registry.nestingSsh 2 raw).isNone = true := by
  intro raw
  have plain : Registry.nestingSsh.Plain := Registry.plain_builtIn.register .sshMessageNumber 0 (.layer .ssh) false
  obtain ⟨within, -⟩ := decode_nesting_bound plain ssh raw
  obtain ⟨p, decoded⟩ := decode_of_accepted plain (show ssh.refusal raw = none by decide)
  have three : (ssh.decode Registry.nestingSsh raw).result.toOption.map (fun p => p.layers.length) = some 3 := by
    decide +kernel
  rw [decoded] at three
  have reached : p.layers.length = 3 := Option.some.inj three
  exact ⟨p, decoded, reached.trans (by decide), within 3 (by decide) (by decide), by decide +kernel⟩

end PacketStack
