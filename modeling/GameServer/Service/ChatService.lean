/-
# Chat and ranking

`src/service/ChatService.cpp` and `src/service/RankingService.cpp`.  A chat goes to
the room the request names.  `send_chat_failed` is never called.  The order in which
`std::sort` leaves players of equal score is open, so the sorted list is a parameter
of the ranking handler.
-/

import GameServer.Server

namespace GameServer

namespace RankingService

def addScore (s : Server) (playerId : PlayerId) (deltaScore : ℤ) : Server :=
  match s.playerStateRepository.loadPlayerState playerId with
  | some state => { s with
      playerStateRepository :=
        s.playerStateRepository.updateScore playerId (toInt (state.score + deltaScore)) }
  | none => s

/-- A list that `std::sort` may leave: the records of the repository, by
non-increasing score. -/
def Ranks (s : Server) (players : List PlayerState) : Prop :=
  (∃ all, s.playerStateRepository.GetAllPlayers all ∧ players.Perm all) ∧
    players.Pairwise fun a b => b.score ≤ a.score

def handleRankingReq (s : Server) (sid : SessionId) (req : RankingReq)
    (players : List PlayerState) : Server :=
  let s := { s with metrics := s.metrics.incrRankingReq }
  let topN := toInt req.topN
  let size := min topN (toInt players.length)
  s.send sid (.rankingResp
    { items := (players.take size.toNat).map fun p => { playerId := p.playerId, score := p.score } })

end RankingService

namespace ChatService

def handleChat (s : Server) (sid : SessionId) (req : ChatReq) : Outcome Server :=
  let s := { s with metrics := s.metrics.incrChatReq }
  let roomId := toInt req.roomId
  let playerId := (s.session sid).playerId
  let s := RankingService.addScore s playerId 1
  match s.roomManager.getRoom roomId with
  | some room => s.roomHandleChat room playerId req.text
  | none => s.crash .nullPointer

end ChatService
end GameServer
