/-
How a layer's bytes fall into parts.

`Layer.Splits` lists the forms that an accepted layer has: a header that decodes, and behind it the payload and the
trailing fields one after the other, as long as the header says. Dissecting finds exactly these forms
(`dissect_eq_ok_iff`), so that what is known of the parts can be used in both directions: to see what was taken
apart, and to take apart what was put together.
-/
import PacketStack.Layer

namespace PacketStack

namespace Layer

/-- The forms of an accepted layer. -/
inductive Splits : Layer → Bytes → Dissection → Prop
  | ipv6Bare {raw trailer : Bytes} {h : Ipv6.Header} :
      Ipv6.Header.decode raw = .ok (h, trailer) → h.payloadLength.toNat = 0 →
      Splits .ipv6 raw (.complete (.bare (.ipv6 h trailer)))
  | ipv6 {raw inner trailer : Bytes} {h : Ipv6.Header} :
      Ipv6.Header.decode raw = .ok (h, inner ++ trailer) → h.payloadLength.toNat = inner.length → inner ≠ [] →
      Splits .ipv6 raw (.handoff (.datagram (.ipv6 h trailer)) .ipNumber h.nextHeader.toNat inner)
  | udpBare {raw trailer : Bytes} {h : Udp.Header} :
      Udp.Header.decode raw = .ok (h, trailer) → h.length.toNat = Udp.headerSize →
      Splits .udp raw (.complete (.bare (.udp h trailer)))
  | udp {raw inner trailer : Bytes} {h : Udp.Header} :
      Udp.Header.decode raw = .ok (h, inner ++ trailer) → h.length.toNat = Udp.headerSize + inner.length → inner ≠ [] →
      Splits .udp raw (.complete (.carrying (.datagram (.udp h trailer)) (.unknown inner)))
  | redirected {raw embedded : Bytes} {h : Redirected.Header} :
      Redirected.Header.decode raw = .ok (h, embedded) →
      Splits .redirected raw (.handoff (.redirected h) .etherType Contract.ipv6EtherType embedded)
  | ssh {raw inner padding mac : Bytes} {h : Ssh.Header} :
      Ssh.Header.decode raw = .ok (h, inner ++ (padding ++ mac)) →
      h.packetLength.toNat = 1 + inner.length + padding.length → h.paddingLength.toNat = padding.length → inner ≠ [] →
      Splits .ssh raw (.handoff (.ssh h padding mac) .sshMessageNumber (inner.headD 0).toNat inner)
  | unknown {raw : Bytes} : raw ≠ [] → Splits .unknown raw (.complete (.unknown raw))

theorem ne_nil_of_length {bytes : Bytes} {n : Nat} (h : n ≠ 0) (size : bytes.length = n) : bytes ≠ [] :=
  List.ne_nil_of_length_pos (by omega)

theorem splits_of_dissect {l : Layer} {raw : Bytes} {d : Dissection} (h : l.dissect raw = .ok d) : l.Splits raw d := by
  cases l with
  | ipv6 =>
    obtain ⟨⟨header, rest⟩, hd, h⟩ := bind_eq_ok.mp h
    simp only at h
    split at h
    · cases h
    next fits =>
    have cut : (rest.take header.payloadLength.toNat).length = header.payloadLength.toNat :=
      List.length_take_of_le (Nat.le_of_not_lt fits)
    rw [← List.take_append_drop header.payloadLength.toNat rest] at hd
    split at h <;> cases h
    · next none =>
      rw [List.take_append_drop] at hd
      exact .ipv6Bare hd none
    · next some => exact .ipv6 hd cut.symm (ne_nil_of_length some cut)
  | udp =>
    obtain ⟨⟨header, rest⟩, hd, h⟩ := bind_eq_ok.mp h
    have size := Udp.Header.length_of_decode hd
    simp only at h
    split at h
    · cases h
    next fits =>
    split at h <;> cases h
    · next none => exact .udpBare hd none
    · next some =>
      have cut : (rest.take (header.length.toNat - Udp.headerSize)).length = header.length.toNat - Udp.headerSize :=
        List.length_take_of_le (by omega)
      rw [← List.take_append_drop (header.length.toNat - Udp.headerSize) rest] at hd
      exact .udp hd (by omega) (ne_nil_of_length (by omega) cut)
  | redirected =>
    obtain ⟨⟨header, embedded⟩, hd, h⟩ := bind_eq_ok.mp h
    cases h
    exact .redirected hd
  | ssh =>
    obtain ⟨⟨header, rest⟩, hd, h⟩ := bind_eq_ok.mp h
    have size := Ssh.Header.length_of_decode hd
    simp only at h
    split at h
    · cases h
    split at h
    · cases h
    split at h <;> cases h
    next missing negative short =>
    simp only [Ssh.headerSize] at size
    let inner := rest.take (header.packetLength.toNat - header.paddingLength.toNat - 1)
    let behind := rest.drop (header.packetLength.toNat - header.paddingLength.toNat - 1)
    have payload : inner.length = header.packetLength.toNat - header.paddingLength.toNat - 1 :=
      List.length_take_of_le (by omega)
    have padding : (behind.take header.paddingLength.toNat).length = header.paddingLength.toNat :=
      List.length_take_of_le (by rw [List.length_drop]; omega)
    have parts : rest = inner ++ (behind.take header.paddingLength.toNat ++ behind.drop header.paddingLength.toNat) := by
      rw [List.take_append_drop, List.take_append_drop]
    have packet : header.packetLength.toNat = 1 + inner.length + (behind.take header.paddingLength.toNat).length := by
      rw [payload, padding]
      omega
    rw [parts] at hd
    exact .ssh hd packet padding.symm (ne_nil_of_length (by omega) payload)
  | unknown =>
    simp only [dissect, dissectUnknown] at h
    split at h <;> cases h
    next present => exact .unknown (by simpa using present)

theorem Splits.dissect {l : Layer} {raw : Bytes} {d : Dissection} (h : l.Splits raw d) : l.dissect raw = .ok d := by
  cases h with
  | ipv6Bare hd none =>
    simp only [Layer.dissect, dissectIpv6, hd, ok_bind, none, Nat.not_lt_zero, if_false, if_true]
  | @ipv6 _ inner trailer h hd size present =>
    have some : inner.length ≠ 0 := fun none => present (List.length_eq_zero_iff.mp none)
    have fits : ¬ (inner ++ trailer).length < inner.length := by rw [List.length_append]; omega
    simp only [Layer.dissect, dissectIpv6, hd, ok_bind, size, fits, some, if_false, List.take_left, List.drop_left]
  | udpBare hd none =>
    have long := Udp.Header.length_of_decode hd
    have fits : ¬ (Udp.headerSize < Udp.headerSize ∨ raw.length < Udp.headerSize) := by omega
    simp only [Layer.dissect, dissectUdp, hd, ok_bind, none, fits, if_false, if_true]
  | @udp _ inner trailer h hd size present =>
    have some : inner.length ≠ 0 := fun none => present (List.length_eq_zero_iff.mp none)
    have long := Udp.Header.length_of_decode hd
    rw [List.length_append] at long
    have fits : ¬ (h.length.toNat < Udp.headerSize ∨ raw.length < h.length.toNat) := by omega
    have more : h.length.toNat ≠ Udp.headerSize := by omega
    have cut : h.length.toNat - Udp.headerSize = inner.length := by omega
    simp only [Layer.dissect, dissectUdp, hd, ok_bind, fits, more, cut, if_false, List.take_left, List.drop_left]
  | redirected hd => simp only [Layer.dissect, dissectRedirected, hd, ok_bind]
  | @ssh _ inner padding mac h hd packet pad present =>
    have some : inner.length ≠ 0 := fun none => present (List.length_eq_zero_iff.mp none)
    have long := Ssh.Header.length_of_decode hd
    rw [List.length_append, List.length_append, Ssh.headerSize] at long
    have missing : h.packetLength.toNat ≠ padding.length + 1 := by omega
    have negative : ¬ h.packetLength.toNat < padding.length + 1 := by omega
    have short : ¬ raw.length < 4 + h.packetLength.toNat := by omega
    have cut : h.packetLength.toNat - padding.length - 1 = inner.length := by omega
    simp only [Layer.dissect, dissectSsh, hd, ok_bind, pad, missing, negative, short, cut, if_false, List.take_left,
      List.drop_left]
  | unknown present =>
    simp only [Layer.dissect, dissectUnknown, List.isEmpty_iff, present, if_false]

theorem dissect_eq_ok_iff {l : Layer} {raw : Bytes} {d : Dissection} : l.dissect raw = .ok d ↔ l.Splits raw d :=
  ⟨splits_of_dissect, Splits.dissect⟩

end Layer
end PacketStack
