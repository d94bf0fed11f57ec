/-
# The documented byte order

`docs/protocol.md` has both header fields in network byte order, most significant byte first
("`msg_id = 1001`", "`03 E9`"), and calls a packet whose `body_len` is above `MAX_BODY_SIZE`
illegal.  `networkFrame` and `networkDecode` are a peer written after the document.  `encode` and
`try_decode` have the least significant byte first, so the peer and the codec read the same
header when its two fields are palindromes, and nothing else (`networkFrame_eq_rawFrame_iff`).
One message that is read differently shifts every frame after it, but since both formats agree
on how long a packet is, a list of messages arrives exactly when each of them does
(`network_order_iff`).
-/

import GameServer.Lib.BigEndian
import GameServer.Net.Receive

namespace GameServer
namespace MessageCodec

/-- A packet as documented. -/
def networkFrame (m : Message) : Bytes :=
  (BigEndian.toBytes 4 m.body.length).map UInt8.toInt8 ++
    (BigEndian.toBytes 2 m.msgId.toNat).map UInt8.toInt8 ++ m.body

/-- The number in some bytes of a header, as documented. -/
def readNetwork (data : Bytes) : ℕ := BigEndian.ofBytes (data.map Int8.toUInt8)

/-- What a peer takes off the front of its buffer.  It waits for a complete packet, and takes
nothing more once a header declares a body above the limit. -/
def networkDecode (b : Bytes) : Option (Message × Bytes) :=
  let bodyLen := readNetwork (b.take 4)
  let msgId := readNetwork ((b.drop 4).take 2)
  if HEADER_SIZE ≤ b.length ∧ bodyLen ≤ MAX_BODY_SIZE ∧ HEADER_SIZE + bodyLen ≤ b.length then
    some (⟨UInt16.ofNat msgId, (b.drop HEADER_SIZE).take bodyLen⟩, b.drop (HEADER_SIZE + bodyLen))
  else none

theorem length_networkFrame (m : Message) :
    (networkFrame m).length = HEADER_SIZE + m.body.length := by
  simp [networkFrame, HEADER_SIZE]
  omega

/-- Reading a field that was written. -/
theorem readNetwork_toBytes {k n : ℕ} (h : n < 256 ^ k) :
    readNetwork ((BigEndian.toBytes k n).map UInt8.toInt8) = n := by
  have hid : Int8.toUInt8 ∘ UInt8.toInt8 = id := rfl
  rw [readNetwork, List.map_map, hid, List.map_id, BigEndian.ofBytes_toBytes h]

/-- Writing a field that was read. -/
theorem toBytes_readNetwork (data : Bytes) :
    (BigEndian.toBytes data.length (readNetwork data)).map UInt8.toInt8 = data := by
  have hid : UInt8.toInt8 ∘ Int8.toUInt8 = id := rfl
  rw [readNetwork, ← List.length_map Int8.toUInt8, BigEndian.toBytes_ofBytes, List.map_map, hid,
    List.map_id]

/-- Two bytes hold a message id. -/
theorem readNetwork_two (a b : Int8) : readNetwork [a, b] < 2 ^ 16 := by
  have ha := a.toUInt8.toNat_lt
  have hb := b.toUInt8.toNat_lt
  have h : readNetwork [a, b] = 256 * (256 * 0 + a.toUInt8.toNat) + b.toUInt8.toNat := rfl
  omega

/-- **A documented packet is recognised whatever follows it.** -/
theorem networkDecode_networkFrame {m : Message} (hm : m.body.length ≤ MAX_BODY_SIZE) (r : Bytes) :
    networkDecode (networkFrame m ++ r) = some (m, r) := by
  have hmax : MAX_BODY_SIZE < 256 ^ 4 := by decide
  have hfour : (networkFrame m ++ r).take 4 =
      (BigEndian.toBytes 4 m.body.length).map UInt8.toInt8 := by
    rw [networkFrame, List.append_assoc, List.append_assoc, List.take_left' (by simp)]
  have htwo : ((networkFrame m ++ r).drop 4).take 2 =
      (BigEndian.toBytes 2 m.msgId.toNat).map UInt8.toInt8 := by
    rw [networkFrame, List.append_assoc, List.append_assoc, List.drop_left' (by simp),
      List.take_left' (by simp)]
  have hbody : (networkFrame m ++ r).drop HEADER_SIZE = m.body ++ r := by
    rw [networkFrame, List.append_assoc, List.drop_left' (by simp [HEADER_SIZE])]
  have hlen := readNetwork_toBytes (hm.trans_lt hmax)
  have hid := readNetwork_toBytes (k := 2) m.msgId.toNat_lt
  rw [networkDecode, hfour, htwo, hlen, hid, if_pos, hbody, List.take_left,
    ← length_networkFrame, List.drop_left, UInt16.ofNat_toNat]
  rw [List.length_append, length_networkFrame]
  exact ⟨by omega, hm, by omega⟩

/-- **The peer takes off packets** with bodies within the limit, and nothing else. -/
theorem networkDecode_eq_some_iff {b : Bytes} {m : Message} {r : Bytes} :
    networkDecode b = some (m, r) ↔ b = networkFrame m ++ r ∧ m.body.length ≤ MAX_BODY_SIZE := by
  refine ⟨fun h => ?_, fun ⟨hb, hm⟩ => hb ▸ networkDecode_networkFrame hm r⟩
  rw [networkDecode] at h
  split_ifs at h with hb
  obtain ⟨hheader, hmax, hbody⟩ := hb
  obtain ⟨rfl, rfl⟩ := Prod.mk.inj (Option.some.inj h)
  obtain ⟨a₀, a₁, a₂, a₃, a₄, a₅, rest, rfl⟩ := header_cases hheader
  have hlen := toBytes_readNetwork [a₀, a₁, a₂, a₃]
  have hid := toBytes_readNetwork [a₄, a₅]
  have htwo := readNetwork_two a₄ a₅
  simp only [List.take, List.drop, HEADER_SIZE, List.length_cons, List.length_nil] at *
  generalize readNetwork [a₀, a₁, a₂, a₃] = bodyLen at *
  have hcut : (rest.take bodyLen).length = bodyLen := by
    rw [List.length_take]
    omega
  refine ⟨?_, hcut.trans_le hmax⟩
  rw [networkFrame]
  dsimp only
  rw [hcut, hlen, UInt16.toNat_ofNat_of_lt' htwo, hid, Nat.add_comm 6]
  simp

theorem headerSize_pos : 0 < HEADER_SIZE := by decide

theorem headerSize_le_length (m : Message) : HEADER_SIZE ≤ (networkFrame m).length := by
  rw [length_networkFrame]
  omega

/-- The peer's format as self-delimiting frames. -/
def networkCodec : Framing Int8 Message where
  decode := networkDecode
  raw := networkFrame
  minLen := HEADER_SIZE
  minLen_pos := headerSize_pos
  minLen_le := headerSize_le_length
  sound h := (networkDecode_eq_some_iff.1 h).1
  complete h r := networkDecode_networkFrame (networkDecode_eq_some_iff.1 h).2 r

theorem networkCodec_decode : networkCodec.decode = networkDecode := rfl

theorem networkCodec_raw : networkCodec.raw = networkFrame := rfl

theorem networkCodec_framed {m : Message} (h : m.body.length ≤ MAX_BODY_SIZE) :
    networkCodec.Framed m := by
  intro r
  rw [networkCodec_decode, networkCodec_raw]
  exact networkDecode_networkFrame h r

/-- Both header fields are the same bytes in either order: those of the id are equal, and those
of the length, the highest of which is 0 within the limit, are `0`, `c`, `c` and `0`. -/
def Palindromic (m : Message) : Prop := 257 ∣ m.msgId.toNat ∧ 65792 ∣ m.body.length

instance (m : Message) : Decidable (Palindromic m) := inferInstanceAs (Decidable (_ ∧ _))

/-- **Which packets are the same** in the document and in the code. -/
theorem networkFrame_eq_rawFrame_iff {m : Message} (h : m.body.length ≤ MAX_BODY_SIZE) :
    networkFrame m = rawFrame m ↔ Palindromic m := by
  have hmax : MAX_BODY_SIZE < 2 ^ 24 := by decide
  have hinj : Function.Injective UInt8.toInt8 := fun _ _ h => congrArg Int8.toUInt8 h
  have hlen {k n : ℕ} : ((BigEndian.toBytes k n).map UInt8.toInt8).length =
      ((LittleEndian.toBytes k n).map UInt8.toInt8).length := by simp
  rw [networkFrame, rawFrame, List.append_left_inj, Palindromic,
    ← BigEndian.toBytes_two_eq_iff m.msgId.toNat_lt,
    ← BigEndian.toBytes_four_eq_iff (h.trans_lt hmax)]
  constructor
  · intro h'
    obtain ⟨hfour, htwo⟩ := List.append_inj h' hlen
    exact ⟨List.map_injective_iff.2 hinj htwo, List.map_injective_iff.2 hinj hfour⟩
  · rintro ⟨htwo, hfour⟩
    rw [htwo, hfour]

/-- **What a peer written after the document understands.**  From the packets that `encode`
writes for messages with bodies within the limit it recovers these messages, and `try_decode`
recovers them from its packets, exactly when both header fields of each are palindromes. -/
theorem network_order_iff {ms : List Message} (hms : ∀ m ∈ ms, m.body.length ≤ MAX_BODY_SIZE) :
    ((networkCodec.drain (ms.map encode).flatten).1 = ms ↔ ∀ m ∈ ms, Palindromic m) ∧
      ((codec.drain (ms.map networkFrame).flatten).1 = ms ↔ ∀ m ∈ ms, Palindromic m) := by
  have hencode : ms.map encode = ms.map rawFrame :=
    List.map_congr_left fun m hm => encode_eq (hms m hm)
  have hlen (m : Message) : (rawFrame m).length = (networkFrame m).length := by
    rw [length_rawFrame, length_networkFrame]
  constructor
  · rw [hencode, networkCodec.drain_fst_eq_iff (fun m hm => networkCodec_framed (hms m hm))
      fun m _ => hlen m]
    exact forall₂_congr fun m hm => eq_comm.trans (networkFrame_eq_rawFrame_iff (hms m hm))
  · rw [codec.drain_fst_eq_iff (fun m hm => codec_framed (hms m hm)) fun m _ => (hlen m).symm]
    exact forall₂_congr fun m hm => networkFrame_eq_rawFrame_iff (hms m hm)

/-- Three messages under ids whose bytes are equal, the second with a body of `0x010100` bytes. -/
theorem network_order_iff_palindrome : ∃ ms : List Message,
    ms.map (fun m => (m.msgId, m.body.length)) = [(0x0101, 0), (0x0303, 65792), (0x0202, 0)] ∧
    (networkCodec.drain (ms.map encode).flatten).1 = ms ∧
    (codec.drain (ms.map networkFrame).flatten).1 = ms := by
  have hlen : (List.replicate 65792 (0x61 : Int8)).length = 65792 := List.length_replicate
  obtain ⟨hout, hin⟩ := @network_order_iff
    [⟨0x0101, []⟩, ⟨0x0303, List.replicate 65792 0x61⟩, ⟨0x0202, []⟩] (by
      simp only [List.forall_mem_cons, hlen]
      decide)
  have hpal : ∀ m ∈ [⟨0x0101, []⟩, ⟨0x0303, List.replicate 65792 0x61⟩, ⟨0x0202, []⟩],
      Palindromic m := by
    simp only [List.forall_mem_cons, Palindromic, hlen]
    decide
  refine ⟨_, ?_, hout.2 hpal, hin.2 hpal⟩
  simp only [List.map_cons, List.map_nil, hlen]
  rfl

/-- **A LoginReq is lost in both directions.**  With three bytes of body, the peer finds an
illegal packet of `0x03000000` bytes in what `encode` writes, and `try_decode` waits for a packet
of that length in what the peer writes. -/
theorem login_not_recovered : ∃ ms : List Message, (∀ m ∈ ms, m.body.length ≤ MAX_BODY_SIZE) ∧
    ms = [⟨MessageId.LoginReq, [10, 1, 97]⟩] ∧
    (networkCodec.drain (ms.map encode).flatten).1 = [] ∧
    (codec.drain (ms.map networkFrame).flatten).1 = [] := by
  refine ⟨[⟨MessageId.LoginReq, [10, 1, 97]⟩], by decide, rfl, ?_, ?_⟩
  · rw [networkCodec.drain_of_none (by decide : networkDecode _ = none)]
  · rw [codec.drain_of_none (by decide : decode _ = none)]

end MessageCodec
end GameServer
