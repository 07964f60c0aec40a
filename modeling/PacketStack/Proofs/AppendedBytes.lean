/-
Bytes appended to what is decoded.

Every layer checks the lengths that its header declares against the bytes that are there, so that more of them never
make a check fail (`Header.decode_append`), and takes its payload by those lengths. The appended bytes therefore end up
in the layer's last part (`Splits.append`): the trailer or the code that authenticates the packet, behind a payload that
stays as it was. Only a redirected header option has its payload at the end.
-/
import PacketStack.Proofs.OptionUnits

namespace PacketStack

/-! ## Headers -/

section
variable {raw rest : Bytes} (extra : Bytes)

theorem Ipv6.Header.decode_append {h : Header} (hd : decode raw = .ok (h, rest)) :
    decode (raw ++ extra) = .ok (h, rest ++ extra) := by
  unfold decode at hd
  split at hd
  · cases hd
  · next hr =>
    split at hd <;> cases hd
    next six =>
    rw [eq_wire_of_read? hr, List.append_assoc]
    exact decode_wire six (rest ++ extra)

theorem Udp.Header.decode_append {h : Header} (hd : decode raw = .ok (h, rest)) :
    decode (raw ++ extra) = .ok (h, rest ++ extra) := by
  unfold decode at hd
  split at hd
  · cases hd
  · next hr =>
    cases hd
    rw [eq_wire_of_read? hr, List.append_assoc]
    exact decode_wire h (rest ++ extra)

theorem Redirected.Header.decode_append {h : Header} (hd : decode raw = .ok (h, rest)) :
    decode (raw ++ extra) = .ok (h, rest ++ extra) := by
  obtain ⟨total, enough⟩ := length_of_decode hd
  unfold decode at hd
  split at hd
  · cases hd
  · next hr =>
    split at hd
    · cases hd
    split at hd
    · cases hd
    next type =>
    split at hd <;> cases hd
    rw [eq_wire_of_read? hr (Decidable.not_not.mp type), List.append_assoc]
    exact h.decode_wire (by rw [List.length_append]; omega) (by rw [List.length_append]; omega)

theorem Ssh.Header.decode_append {h : Header} (hd : decode raw = .ok (h, rest)) :
    decode (raw ++ extra) = .ok (h, rest ++ extra) := by
  unfold decode at hd
  split at hd
  · cases hd
  · next hr =>
    split at hd <;> cases hd
    next below =>
    rw [eq_wire_of_read? hr (Nat.le_of_not_lt below), List.append_assoc]
    exact decode_wire _ (rest ++ extra)

end

/-! ## The last part -/

/-- The datagram with more bytes in its trailer. -/
def Datagram.followedBy (extra : Bytes) : Datagram → Datagram
  | ipv6 h trailer => ipv6 h (trailer ++ extra)
  | udp h trailer => udp h (trailer ++ extra)

/-- The packet with more bytes in its last part, the trailing field of its outermost layer wherever there is one. -/
def Packet.followedBy (extra : Bytes) : Packet → Packet
  | leaf (.unknown raw) => unknown (raw ++ extra)
  | leaf (.malformed raw cause) => malformed (raw ++ extra) cause
  | bare d => bare (d.followedBy extra)
  | carrying (.datagram d) payload => carrying (.datagram (d.followedBy extra)) payload
  | carrying (.redirected h) payload => carrying (.redirected h) (payload.followedBy extra)
  | carrying (.ssh h padding mac) payload => carrying (.ssh h padding (mac ++ extra)) payload

def Dissection.followedBy (extra : Bytes) : Dissection → Dissection
  | complete p => complete (p.followedBy extra)
  | handoff (.datagram d) contract value inner => handoff (.datagram (d.followedBy extra)) contract value inner
  | handoff (.redirected h) contract value inner => handoff (.redirected h) contract value (inner ++ extra)
  | handoff (.ssh h padding mac) contract value inner => handoff (.ssh h padding (mac ++ extra)) contract value inner

theorem Datagram.front_followedBy (d : Datagram) (extra : Bytes) :
    (d.followedBy extra).surround.front = d.surround.front := by
  cases d <;> rfl

theorem Datagram.back_followedBy (d : Datagram) (extra : Bytes) :
    (d.followedBy extra).surround.back = d.surround.back ++ extra := by
  rw [back_eq, back_eq]
  cases d <;> rfl

/-- The bytes stand behind all others. -/
theorem Packet.serialize_followedBy (p : Packet) (extra : Bytes) :
    (p.followedBy extra).serialize = p.serialize ++ extra := by
  induction p with
  | leaf l => cases l <;> simp only [followedBy, unknown, malformed, serialize_leaf, Leaf.raw]
  | bare d =>
    simp only [followedBy, serialize_bare, Datagram.front_followedBy, Datagram.back_followedBy, List.append_assoc]
  | carrying f payload ih =>
    cases f with
    | datagram d =>
      simp only [followedBy, serialize_carrying, Frame.surround, Datagram.front_followedBy, Datagram.back_followedBy,
        List.append_assoc]
    | redirected h => simp only [followedBy, Redirected.Header.serialize_around, ih, List.append_assoc]
    | ssh h padding mac =>
      simp only [followedBy, serialize_carrying, Frame.back_ssh, List.append_assoc]
      rfl

namespace Layer

/-- Where an accepted layer has its parts, it has them with more bytes behind, which join the last of them. -/
theorem Splits.append {l : Layer} {raw : Bytes} {d : Dissection} (h : l.Splits raw d) (extra : Bytes) :
    l.Splits (raw ++ extra) (d.followedBy extra) := by
  cases h with
  | ipv6Bare front none => exact .ipv6Bare (Ipv6.Header.decode_append extra front) none
  | ipv6 front size present =>
    have behind := Ipv6.Header.decode_append extra front
    rw [List.append_assoc] at behind
    exact .ipv6 behind size present
  | udpBare front none => exact .udpBare (Udp.Header.decode_append extra front) none
  | udp front size present =>
    have behind := Udp.Header.decode_append extra front
    rw [List.append_assoc] at behind
    exact .udp behind size present
  | redirected front => exact .redirected (Redirected.Header.decode_append extra front)
  | ssh front packet padding present =>
    have behind := Ssh.Header.decode_append extra front
    rw [List.append_assoc, List.append_assoc] at behind
    exact .ssh behind packet padding present
  | unknown present => exact .unknown (List.append_ne_nil_of_left_ne_nil present extra)

variable {r : Registry Decoder} {raw : Bytes}

end Layer
end PacketStack
