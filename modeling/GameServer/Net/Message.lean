/-
# Messages and message ids

`src/net/Message.h` and `src/net/MessageId.h`.  A `std::string` or a
`std::vector<char>` is a list of `char`, which is a signed byte on the platforms
the server is built for.
-/

import Mathlib.Data.List.Basic
import Mathlib.Tactic

namespace GameServer

/-- `std::string` and `std::vector<char>`: a list of signed `char`. -/
abbrev Bytes := List Int8

/-- A string literal of the source; all of them are ASCII. -/
def ascii (s : String) : Bytes := s.toList.map fun c => Int8.ofNat c.toNat

/-- `struct Message`. -/
structure Message where
  msgId : UInt16 := 0
  body : Bytes := []
  deriving DecidableEq

/-! ### `class MessageId` -/

namespace MessageId

def LoginReq : UInt16 := 1001
def LoginResp : UInt16 := 1002
def MatchReq : UInt16 := 2001
def MatchResp : UInt16 := 2002
def RoomCreatedNotify : UInt16 := 3001
def ChatReq : UInt16 := 4001
def ChatNotify : UInt16 := 4002
def ChatResp : UInt16 := 4003
def HeartbeatReq : UInt16 := 9001
def HeartbeatResp : UInt16 := 9002
def ReconnectReq : UInt16 := 9101
def ReconnectResp : UInt16 := 9102
def RankingReq : UInt16 := 5001
def RankingResp : UInt16 := 5002

end MessageId
end GameServer
