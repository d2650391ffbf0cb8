import SlopSync.Client.Run

/-! # A scripted environment for a client

As for the hub, the answers of the world are fields of its state, and the host may change the script between two
calls (`Call.world`). -/

namespace SlopSync

namespace Client

/-- What the world will answer. -/
structure Bench where
  openOk : Bool := true
  writeOk : Bool := true
  clockUs : UInt32 := 0

/-- No signature verifies here. -/
def Bench.world : World Bench where
  openTransport e := (e.openOk, e)
  closeTransport e := e
  write _ e := (e.writeOk, e)
  nowUs e := e.clockUs
  fill n e := (ByteArr.zero n, e)
  verifyP256 _ _ _ := false
  f32Bits _ := 0
  notify _ e := e

/-- The answer of a hub that has nothing to push, to a client that has its catalog. -/
def Bench.welcome (sessionId : UInt32) : WelcomeMsg :=
  { sessionId, bootId := 1, catalogEtag := ByteArr.zero 8, cfgGen := 0, retainedPending := 0, roles := 1,
    nonce := ByteArr.zero 8 }

/-- An update in which these frames are to be read. -/
def Bench.reads (nowUs : UInt32) (frames : List Inbound) : Call Bench := .update nowUs (frames.map RxFrame.frame)

end Client

end SlopSync
