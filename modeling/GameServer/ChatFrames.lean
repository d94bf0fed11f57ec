/-
# Chats that do not fit into a frame

`encode` gives an empty packet for a body of more than `MAX_BODY_SIZE` bytes, and
`Session::send` queues and counts what `encode` gives without looking at it.  The ChatNotify of
`Room::handle_chat` has the room's own id, the text of the ChatReq and the id of the sender, so a
request that fits into a frame may have a notification that does not: then everybody in the room
is sent nothing, and nobody is told.  `notify_framed_iff` says when, for every chat that is handled
in a run: the request with the room's own id, which is that of the request after its conversion to
`int`, must leave over `playerIdSize`, 3 bytes for the first ids and at most 6.
-/

import GameServer.Formation
import GameServer.IntRange
import GameServer.Net.SessionIo
import GameServer.Proto.Wire

namespace GameServer

open MessageCodec

theorem MessageCodec.encode_ne_nil_iff {m : Message} :
    encode m ≠ [] ↔ m.body.length ≤ MAX_BODY_SIZE := by
  constructor
  · intro h
    by_contra hlong
    rw [encode, encodeBody, if_pos (not_le.1 hlong)] at h
    exact h rfl
  · intro h hnil
    have hlen := length_rawFrame m
    rw [← encode_eq h, hnil, List.length_nil, HEADER_SIZE] at hlen
    omega

/-- `Session::send` queues what `encode` gives. -/
theorem SessionIo.writeQueue_send (io : SessionIo) (msg : Message) :
    (io.send msg).writeQueue = io.writeQueue ++ [encode msg] := by
  simp only [send, doWrite]
  split_ifs
  · rfl
  · split <;> rfl
  · rfl

/-- Whoever is sent the message gets a packet into the queue, and not an empty one. -/
def Framed (msg : Message) : Prop :=
  ∀ io : SessionIo, ∃ packet, packet ≠ [] ∧ (io.send msg).writeQueue = io.writeQueue ++ [packet]

theorem framed_iff {msg : Message} : Framed msg ↔ msg.body.length ≤ MAX_BODY_SIZE := by
  rw [← encode_ne_nil_iff]
  constructor
  · intro h hnil
    obtain ⟨packet, hne, hqueue⟩ := h {}
    rw [SessionIo.writeQueue_send, hnil] at hqueue
    exact hne (List.singleton_injective (List.append_cancel_left hqueue)).symm
  · exact fun h io => ⟨encode msg, h, io.writeQueue_send msg⟩

/-- **What a chat hands out and counts.** -/
theorem Server.sent_chat {s s' : Server} {sid : SessionId} {req : ChatReq} {now : Instant}
    (h : server.step s (.request sid (.chat req) now) s') :
    ∃ room, s.roomManager.getRoom (toInt req.roomId) = some room ∧
      s'.sent = s.sent ++ room.playerIds.map (fun p => (s.sessionOf p, .chatNotify
        { roomId := room.roomId, playerId := (s.session sid).playerId, text := req.text })) ∧
      s'.metrics = ServerMetrics.incrSendPacket^[room.playerIds.length]
        s.metrics.incrRecvPacket.incrChatReq := by
  have h : ChatService.handleChat (s.received sid now) sid req = .ok s' := h.2
  obtain ⟨room, hroom, -, rfl⟩ := handleChat_ok h
  exact ⟨room, hroom, rfl, by simp only [sendEach, List.length_map]; rfl⟩

/-- What a chat sends: the notification, with the room's own id, to the sessions of the members. -/
theorem Server.drop_sent_chat {s s' : Server} {sid : SessionId} {req : ChatReq} {now : Instant}
    (hf : Formed s.core) (h : server.step s (.request sid (.chat req) now) s') :
    ∃ room, s.roomManager.getRoom (toInt req.roomId) = some room ∧ room.Formed (toInt req.roomId) ∧
      s'.sent.drop s.sent.length = room.playerIds.map fun p => (s.sessionOf p, .chatNotify
        { roomId := room.roomId, playerId := (s.session sid).playerId, text := req.text }) := by
  obtain ⟨room, hroom, hsent, -⟩ := sent_chat h
  exact ⟨room, hroom, hf.getRoom hroom, by rw [hsent, List.drop_left]⟩

/-- Two matched players, and a chat of the first in their room. -/
theorem exists_chat (req : ChatReq) (hreq : toInt req.roomId = 1) : ∃ tr s s', server.Run tr s ∧
    server.step s (.request 0 (.chat req) {}) s' ∧ (s.session 0).playerId = 10000 ∧
    s'.sent = s.sent ++ [
      (0, .chatNotify { roomId := 1, playerId := 10000, text := req.text }),
      (1, .chatNotify { roomId := 1, playerId := 10000, text := req.text })] ∧
    s'.metrics.totalSendPackets = s.metrics.totalSendPackets + 2 := by
  obtain ⟨tr, s, h, halive, hid, ⟨room, hroom, hroomId, hplayers⟩, hres₀, hres₁, h₀, h₁, htotal⟩ :=
    Server.exists_run (Q := fun _ s => s.alive 0 ∧ (s.session 0).playerId = 10000 ∧
      (∃ room ∈ s.roomManager.getRoom 1, room.roomId = 1 ∧ room.playerIds = [10000, 10001]) ∧
      s.core.Resolves 10000 ∧ s.core.Resolves 10001 ∧ s.sessionOf 10000 = 0 ∧
      s.sessionOf 10001 = 1 ∧ s.metrics.totalSendPackets = 6)
    Server.pairUp (by decide +kernel)
  have hroom : s.roomManager.getRoom (toInt req.roomId) = some room := hreq ▸ hroom
  have hres : ∀ p ∈ room.playerIds, s.core.Resolves p := by
    rw [hplayers]
    simpa using ⟨hres₀, hres₁⟩
  have hchat : ∃ s', ChatService.handleChat (s.received 0 {}) 0 req = .ok s' :=
    Server.handleChat_of_resolves 0 hroom hres
  obtain ⟨s', hs'⟩ := hchat
  have hstep : server.step s (.request 0 (.chat req) {}) s' := ⟨⟨halive, trivial⟩, hs'⟩
  obtain ⟨room', hroom', hsent, hmetrics⟩ := Server.sent_chat hstep
  obtain rfl : room = room' := Option.some.inj (hroom.symm.trans hroom')
  refine ⟨tr, s, s', h, hstep, hid, ?_, ?_⟩
  · rw [hsent, hplayers, hid, hroomId, List.map_cons, List.map_cons, List.map_nil, h₀, h₁]
  · rw [hmetrics, hplayers]
    simp [ServerMetrics.incrSendPacket, ServerMetrics.incrChatReq, ServerMetrics.incrRecvPacket,
      htotal, toInt]

/-- The size of a chat with a text between 16 KiB and 2 MiB. -/
theorem length_serialize_chatReq (r : ℤ) {text : Bytes} (hlo : 2 ^ 14 ≤ text.length)
    (hhi : text.length < 2 ^ 21) : (ChatReq.serialize { roomId := r, text := text }).length =
      (Wire.int64Field 1 r).length + (4 + text.length) := by
  have hne : text.isEmpty = false := by
    rw [List.isEmpty_eq_false_iff, ← List.length_pos_iff]
    omega
  have hsize : (Varint.toVarint text.length).length = 3 := by
    have h₁ := Varint.length_toVarint_le_iff 1 text.length
    have h₂ := Varint.length_toVarint_le_iff 2 text.length
    omega
  have hfield : (Wire.stringField 2 text).length = 4 + text.length := by
    simp [Wire.stringField, hne, Wire.length_tag (show 8 * 2 + 2 < 128 by omega), Wire.varint,
      Wire.WIRETYPE_LENGTH_DELIMITED, hsize]
    omega
  rw [ChatReq.serialize, List.length_append, hfield]

/-- The size of the field of room 1. -/
theorem length_roomIdField : (Wire.int64Field 1 1).length = 2 := by
  simp [Wire.int64Field, Wire.tag, Wire.varint, Wire.WIRETYPE_VARINT, Varint.toVarint_of_lt]

/-- **When a chat that fits into a frame is broadcast in one.**  In every run, the notification that
a chat of a player sends to the sessions of the members makes a packet exactly when the request with
the room's own id leaves room for the id of the sender. -/
theorem notify_framed_iff {tr : History} {s s' : Server} {sid : SessionId} {req : ChatReq}
    {now : Instant} (h : server.Run tr s) (hs : server.step s (.request sid (.chat req) now) s')
    (hlo : 10000 ≤ (s.session sid).playerId)
    (hfits : (ChatReq.serialize req).length ≤ MAX_BODY_SIZE) :
    encode (ChatReq.message req) ≠ [] ∧
      ∃ room, s.roomManager.getRoom (toInt req.roomId) = some room ∧
        s'.sent.drop s.sent.length = room.playerIds.map (fun p => (s.sessionOf p, .chatNotify
          { roomId := room.roomId, playerId := (s.session sid).playerId, text := req.text })) ∧
        ((∀ x ∈ s'.sent.drop s.sent.length, ∃ n, x.2 = .chatNotify n ∧ Framed n.message) ↔
          (ChatReq.serialize { req with roomId := toInt req.roomId }).length +
            (if (s.session sid).playerId < 2 ^ 14 then 3
              else if (s.session sid).playerId < 2 ^ 21 then 4
              else if (s.session sid).playerId < 2 ^ 28 then 5 else 6) ≤ MAX_BODY_SIZE) := by
  obtain ⟨room, hroom, hform, hsent⟩ := Server.drop_sent_chat (Formed.of_run h) hs
  have hhi : (s.session sid).playerId < 2 ^ 31 := ((Server.inRange_of_run h).session sid).2
  have hframed := @framed_iff (ChatNotify.message
    { roomId := toInt req.roomId, playerId := (s.session sid).playerId, text := req.text })
  rw [ChatNotify.message, Wire.length_serialize_chatNotify hlo hhi, Wire.playerIdSize] at hframed
  refine ⟨encode_ne_nil_iff.2 hfits, room, hroom, hsent, ?_⟩
  rw [← hframed, hsent, List.forall_mem_map, hform.roomId_eq]
  constructor
  · intro hall
    obtain ⟨p, hp⟩ := List.exists_mem_of_ne_nil _ hform.ne_nil
    obtain ⟨n, hn, hframe⟩ := hall p hp
    obtain rfl := Response.chatNotify.inj hn
    exact hframe
  · exact fun hframe p _ => ⟨_, rfl, hframe⟩

/-- The longest chat that fits, for room 1 under the id `2 ^ 32 + 1`. -/
def wideChat : ChatReq := { roomId := 2 ^ 32 + 1, text := List.replicate 1048566 0x61 }

/-- The first of two matched players sends it.  The request takes the whole frame, 4 bytes of it for
what its room id is longer than the room's own, and these are enough for the id of the sender. -/
theorem notify_framed_iff_wide : ∃ tr s s', server.Run tr s ∧
    server.step s (.request 0 (.chat wideChat) {}) s' ∧
    wideChat.serialize.length = MAX_BODY_SIZE ∧
    (s'.sent.drop s.sent.length).map Prod.fst = [0, 1] ∧
    ∀ x ∈ s'.sent.drop s.sent.length, ∃ n, x.2 = .chatNotify n ∧ Framed n.message := by
  have hwide : wideChat.roomId = 2 ^ 32 + 1 := rfl
  have htext : wideChat.text.length = 1048566 := by rw [wideChat, List.length_replicate]
  generalize wideChat = req at hwide htext ⊢
  have hroom : toInt req.roomId = 1 := by
    rw [hwide]
    decide
  have hfield : (Wire.int64Field 1 req.roomId).length = 6 := by
    simp [hwide, Wire.int64Field, Wire.tag, Wire.varint, Wire.WIRETYPE_VARINT, Varint.toVarint]
  have hsize (r : ℤ) : (ChatReq.serialize { req with roomId := r }).length =
      (Wire.int64Field 1 r).length + (4 + req.text.length) :=
    length_serialize_chatReq r (by omega) (by omega)
  have hlen : req.serialize.length = MAX_BODY_SIZE :=
    (hsize req.roomId).trans (by rw [hfield, htext, MAX_BODY_SIZE])
  have hshort : (ChatReq.serialize { req with roomId := toInt req.roomId }).length = 1048572 :=
    (hsize _).trans (by rw [hroom, length_roomIdField, htext])
  obtain ⟨tr, s, s', h, hs, hid, hsent, -⟩ := exists_chat req hroom
  obtain ⟨-, room, -, -, hiff⟩ := notify_framed_iff h hs (by rw [hid]) hlen.le
  refine ⟨tr, s, s', h, hs, hlen, by rw [hsent, List.drop_left]; rfl, hiff.2 ?_⟩
  rw [hid, hshort]
  decide

/-- The longest chat that fits, for room 1. -/
def longChat : ChatReq := { roomId := 1, text := List.replicate 1048570 0x61 }

/-- **A chat that is sent to nobody.**  The first of two matched players sends the longest text
that fits.  Both players are handed the notification, which `encode` gives no packet for: an
empty one is queued on their sessions and counted. -/
theorem chat_not_framed : ∃ tr s s' n, server.Run tr s ∧
    server.step s (.request 0 (.chat longChat) {}) s' ∧
    encode (ChatReq.message longChat) ≠ [] ∧
    (s.session 0).playerId = 10000 ∧
    s'.sent = s.sent ++ [(0, .chatNotify n), (1, .chatNotify n)] ∧
    s'.metrics.totalSendPackets = s.metrics.totalSendPackets + 2 ∧
    encode n.message = [] ∧ ¬ Framed n.message ∧
    ∀ io : SessionIo, (io.send n.message).writeQueue = io.writeQueue ++ [[]] := by
  have hroom : longChat.roomId = 1 := rfl
  have htext : longChat.text.length = 1048570 := by rw [longChat, List.length_replicate]
  generalize longChat = req at hroom htext ⊢
  have hsize (r : ℤ) : (ChatReq.serialize { roomId := r, text := req.text }).length =
      (Wire.int64Field 1 r).length + (4 + req.text.length) :=
    length_serialize_chatReq r (by omega) (by omega)
  have hlen : (ChatReq.serialize { roomId := 1, text := req.text }).length = MAX_BODY_SIZE :=
    (hsize 1).trans (by rw [length_roomIdField, htext, MAX_BODY_SIZE])
  have hfits : req.serialize.length = MAX_BODY_SIZE :=
    (hsize req.roomId).trans (by rw [hroom, length_roomIdField, htext, MAX_BODY_SIZE])
  obtain ⟨tr, s, s', h, hs, hid, hsent, htotal⟩ := exists_chat req (by rw [hroom]; decide)
  have hlong : MAX_BODY_SIZE <
      (ChatNotify.message { roomId := 1, playerId := 10000, text := req.text }).body.length := by
    rw [ChatNotify.message, Wire.length_serialize_chatNotify (by decide) (by decide), hlen]
    decide
  have hnil : encode (ChatNotify.message { roomId := 1, playerId := 10000, text := req.text }) = [] :=
    not_not.1 (mt encode_ne_nil_iff.1 (not_le.2 hlong))
  exact ⟨tr, s, s', _, h, hs, encode_ne_nil_iff.2 hfits.le, hid, hsent, htotal, hnil,
    mt framed_iff.1 (not_le.2 hlong), fun io => by rw [SessionIo.writeQueue_send, hnil]⟩

end GameServer
