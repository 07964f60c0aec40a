/-
What taking one layer apart comes to, said of the bytes alone.

`refusal` is the class of the first check that the bytes fail, and `inside` the part of the bytes that lies
between a layer's header and its trailing fields, both read off the wire at fixed places. `dissect_wire` says that
dissecting is refused for that very reason, and that otherwise nothing of the bytes is lost: header, payload and
trailing fields put together are the bytes that were dissected.
-/
import PacketStack.Layer
import PacketStack.Proofs.Wire

namespace PacketStack

namespace Layer

/-- The class of the first check that a layer's own bytes fail. -/
def refusal : Layer → Bytes → Option FaultClass
  | ipv6, raw =>
    if raw.length < 40 then some .malformedInput
    else if raw.fieldAt 0 1 / 16 ≠ 6 then some .typeMismatch
    else if raw.length - 40 < raw.fieldAt 4 2 then some .inconsistentLength
    else none
  | udp, raw =>
    if raw.length < 8 then some .malformedInput
    else if raw.fieldAt 4 2 < 8 ∨ raw.length < raw.fieldAt 4 2 then some .inconsistentLength
    else none
  | redirected, raw =>
    if raw.length < 48 then some .malformedInput
    else if raw.fieldAt 0 1 ≠ 4 then some .typeMismatch
    else if raw.length < 8 * raw.fieldAt 1 1 then some .inconsistentLength
    else none
  | ssh, raw =>
    if raw.length < 5 then some .malformedInput
    else if 0x7fffffff < raw.fieldAt 0 4 then some .inconsistentLength
    else if raw.fieldAt 0 4 = raw.fieldAt 4 1 + 1 then some .malformedInput
    else if raw.fieldAt 0 4 < raw.fieldAt 4 1 + 1 then some .inconsistentLength
    else if raw.length < 4 + raw.fieldAt 0 4 then some .inconsistentLength
    else none
  | unknown, raw => if raw = [] then some .malformedInput else none

/-- The bytes behind a layer's header, as many as its lengths leave for the payload. -/
def inside : Layer → Bytes → Bytes
  | ipv6, raw => (raw.drop 40).take (raw.fieldAt 4 2)
  | udp, raw => (raw.drop 8).take (raw.fieldAt 4 2 - 8)
  | redirected, raw => raw.drop 8
  | ssh, raw => (raw.drop 5).take (raw.fieldAt 0 4 - raw.fieldAt 4 1 - 1)
  | unknown, _ => []

end Layer

/-- The dissection holds all of the bytes, and the payload is what lies inside them. -/
def Dissection.Fits (l : Layer) (raw : Bytes) : Dissection → Prop
  | complete p => p.serialize = raw ∧ ∀ payload ∈ p.payload?, payload = .unknown (l.inside raw)
  | handoff frame _ _ inner => inner = l.inside raw ∧ frame.surround.front ++ (inner ++ frame.surround.back) = raw

/-- A refusal is the one that the bytes call for, and anything else fits them. -/
def Layer.OnWire (l : Layer) (raw : Bytes) : Except Fault Dissection → Prop
  | .error f => l.refusal raw = some f.faultClass
  | .ok d => l.refusal raw = none ∧ d.Fits l raw

theorem Datagram.back_eq (d : Datagram) : d.surround.back = d.trailer := List.append_nil _

theorem Frame.back_ssh (h : Ssh.Header) (padding mac : Bytes) : (ssh h padding mac).surround.back = padding ++ mac :=
  congrArg (padding ++ ·) (List.append_nil mac)

namespace Layer

theorem dissectIpv6_wire (raw : Bytes) : ipv6.OnWire raw (dissectIpv6 raw) := by
  obtain ⟨short, hd⟩ | ⟨long, other, version, hd⟩ | ⟨long, six, h, hd, front, length, -⟩ := Ipv6.Header.decode_cases raw
  · simp only [dissectIpv6, hd, error_bind, OnWire, refusal, short, if_true]
    rfl
  · simp only [dissectIpv6, hd, error_bind, OnWire, refusal, Nat.not_lt.mpr long, other, ne_eq, not_false_eq_true, if_false,
      if_true]
    rfl
  · simp only [dissectIpv6, hd, ok_bind, length, List.length_drop]
    split
    · next exceeds =>
      simp only [OnWire, refusal, Nat.not_lt.mpr long, six, exceeds, ne_eq, not_true_eq_false, if_false, if_true]
      rfl
    · next fits =>
      have accepted : ipv6.refusal raw = none := by
        simp only [refusal, Nat.not_lt.mpr long, six, fits, ne_eq, not_true_eq_false, if_false]
      split
      · refine ⟨accepted, ?_, fun payload none => by cases none⟩
        rw [Packet.serialize_bare, Datagram.back_eq]
        exact (congrArg (· ++ raw.drop 40) front).trans (List.take_append_drop 40 raw)
      · refine ⟨accepted, rfl, ?_⟩
        have back : (Frame.datagram (.ipv6 h ((raw.drop 40).drop (raw.fieldAt 4 2)))).surround.back = _ :=
          Datagram.back_eq _
        rw [back, Datagram.trailer, List.take_append_drop]
        exact (congrArg (· ++ raw.drop 40) front).trans (List.take_append_drop 40 raw)

theorem dissectUdp_wire (raw : Bytes) : udp.OnWire raw (dissectUdp raw) := by
  obtain ⟨short, hd⟩ | ⟨long, h, hd, front, length⟩ := Udp.Header.decode_cases raw
  · simp only [dissectUdp, hd, error_bind, OnWire, refusal, short, if_true]
    rfl
  · simp only [dissectUdp, hd, ok_bind, length, Udp.headerSize]
    split
    · next outside =>
      simp only [OnWire, refusal, Nat.not_lt.mpr long, outside, if_false, if_true]
      rfl
    · next fits =>
      have accepted : udp.refusal raw = none := by simp only [refusal, Nat.not_lt.mpr long, fits, if_false]
      split
      · refine ⟨accepted, ?_, fun payload none => by cases none⟩
        rw [Packet.serialize_bare, Datagram.back_eq]
        exact (congrArg (· ++ raw.drop 8) front).trans (List.take_append_drop 8 raw)
      · refine ⟨accepted, ?_, fun payload some => by cases some; rfl⟩
        have back : (Frame.datagram (.udp h ((raw.drop 8).drop (raw.fieldAt 4 2 - 8)))).surround.back = _ :=
          Datagram.back_eq _
        rw [Packet.serialize_carrying, Packet.unknown, Packet.serialize_leaf, back, Datagram.trailer, Leaf.raw,
          List.take_append_drop]
        exact (congrArg (· ++ raw.drop 8) front).trans (List.take_append_drop 8 raw)

theorem dissectRedirected_wire (raw : Bytes) : redirected.OnWire raw (dissectRedirected raw) := by
  obtain ⟨short, hd⟩ | ⟨long, other, type, hd⟩ | ⟨long, four, above, announced, hd⟩ | ⟨long, four, fits, h, hd, front, -⟩ :=
    Redirected.Header.decode_cases raw
  · simp only [dissectRedirected, hd, error_bind, OnWire, refusal, short, if_true]
    rfl
  · simp only [dissectRedirected, hd, error_bind, OnWire, refusal, Nat.not_lt.mpr long, other, ne_eq, not_false_eq_true,
      if_false, if_true]
    rfl
  · simp only [dissectRedirected, hd, error_bind, OnWire, refusal, Nat.not_lt.mpr long, four, above, ne_eq,
      not_true_eq_false, if_false, if_true]
    rfl
  · simp only [dissectRedirected, hd, ok_bind]
    refine ⟨?_, rfl, ?_⟩
    · simp only [refusal, Nat.not_lt.mpr long, four, Nat.not_lt.mpr fits, ne_eq, not_true_eq_false, if_false]
    · have back : (Frame.redirected h).surround.back = [] := rfl
      rw [back, List.append_nil]
      exact (congrArg (· ++ raw.drop 8) front).trans (List.take_append_drop 8 raw)

theorem dissectSsh_wire (raw : Bytes) : ssh.OnWire raw (dissectSsh raw) := by
  obtain ⟨short, hd⟩ | ⟨long, above, length, hd⟩ | ⟨long, below, h, hd, front, length, padding⟩ := Ssh.Header.decode_cases raw
  · simp only [dissectSsh, hd, error_bind, OnWire, refusal, short, if_true]
    rfl
  · simp only [dissectSsh, hd, error_bind, OnWire, refusal, Nat.not_lt.mpr long, above, if_false, if_true]
    rfl
  · simp only [dissectSsh, hd, ok_bind, length, padding]
    split
    · next missing =>
      simp only [OnWire, refusal, Nat.not_lt.mpr long, Nat.not_lt.mpr below, if_false, if_pos missing]
      rfl
    split
    · next missing negative =>
      simp only [OnWire, refusal, Nat.not_lt.mpr long, Nat.not_lt.mpr below, missing, negative, if_false, if_true]
      rfl
    split
    · next missing negative exceeds =>
      simp only [OnWire, refusal, Nat.not_lt.mpr long, Nat.not_lt.mpr below, missing, negative, exceeds, if_false, if_true]
      rfl
    · next missing negative fits =>
      refine ⟨?_, rfl, ?_⟩
      · simp only [refusal, Nat.not_lt.mpr long, Nat.not_lt.mpr below, missing, negative, fits, if_false]
      · rw [Frame.back_ssh, List.take_append_drop, List.take_append_drop]
        exact (congrArg (· ++ raw.drop 5) front).trans (List.take_append_drop 5 raw)

theorem dissectUnknown_wire (raw : Bytes) : unknown.OnWire raw (dissectUnknown raw) := by
  unfold dissectUnknown
  split
  · next empty =>
    simp only [OnWire, refusal, List.isEmpty_iff.mp empty, if_true]
    rfl
  · next present =>
    refine ⟨if_neg (by simpa using present), Packet.serialize_leaf _, fun payload none => by cases none⟩

/-- Dissecting is refused exactly for the reason that stands on the wire, and loses nothing otherwise. -/
theorem dissect_wire (l : Layer) (raw : Bytes) : l.OnWire raw (l.dissect raw) := by
  cases l with
  | ipv6 => exact dissectIpv6_wire raw
  | udp => exact dissectUdp_wire raw
  | redirected => exact dissectRedirected_wire raw
  | ssh => exact dissectSsh_wire raw
  | unknown => exact dissectUnknown_wire raw

theorem refusal_of_dissect {l : Layer} {raw : Bytes} {f : Fault} (h : l.dissect raw = .error f) :
    l.refusal raw = some f.faultClass := by
  have wire := l.dissect_wire raw
  rwa [h] at wire

theorem fits_of_dissect {l : Layer} {raw : Bytes} {d : Dissection} (h : l.dissect raw = .ok d) :
    l.refusal raw = none ∧ d.Fits l raw := by
  have wire := l.dissect_wire raw
  rwa [h] at wire

end Layer
end PacketStack
