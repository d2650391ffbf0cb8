import SlopSync.Hub.Run

/-! # A scripted environment

A small world whose answers are fields of its state, and a small catalog.  The host may change the script between
two calls (`Call.world`), so that concrete runs can be written down and evaluated. -/

namespace SlopSync

/-- What the world will answer. -/
structure Bench where
  draws : UInt32 := 0                    -- session ids are drawn in order
  clockUs : UInt32 := 0
  writeOk : Bool := true                 -- the transports take frames
  answer : AccessLevel := .watch         -- `validateToken`
  source : Option UInt8 := none          -- `sourceForChannel`
  result : Except NackCode IntentValueMap := .ok []   -- `applyIntent`
  cfgChanged : Bool := false
  clearOk : Bool := true

def Bench.world : World Bench where
  openTransport _ e := (true, e)
  closeTransport _ e := e
  write _ _ e := (e.writeOk, e)
  mtu _ := 1024
  nowUs e := e.clockUs
  nextU32 e := (e.draws + 1, { e with draws := e.draws + 1 })
  fill n e := (ByteArr.zero n, e)
  drawFuel := 1
  draw_ne_zero := by
    intro e
    simp only [drawNonZero]
    split
    · rename_i h
      rw [h]
      exact (by decide : (0 : UInt32) + 1 ≠ 0)
    · assumption
  publicKey := []
  signP256 _ e := ([], e)
  f32Bits _ := 0
  notify _ e := e
  validateToken _ _ e := (e.answer, e)
  applyIntent _ _ _ e := ((e.result, e.cfgChanged), e)
  sourceForChannel _ e := (e.source, e)
  sourcePolicy _ e := (.stop, e)
  canClearEstop e := (e.clearOk, e)
  effectiveCurveFamily _ family e := (family, e)
  readBlob _ _ _ e := (none, e)

/-- A state channel, an intent channel, a stream to publish to and the channels the hub serves itself. -/
def Bench.config : Config where
  catalog :=
    [{ id := Channels.safety, cls := .state }, { id := Channels.controlOwner, cls := .state },
     { id := Channels.safetyIntents, cls := .intent, dir := .c2h },
     { id := Channels.sessionAdmin, cls := .intent, dir := .c2h, access := .configure },
     { id := 0x0100, cls := .intent, dir := .c2h, access := .control },
     { id := 0x0101, cls := .state, access := .configure },
     { id := 0x0102, cls := .stream, dir := .c2h, access := .control }]
  etag := ByteArr.zero 8
  catalogEncoded := []

/-- An update in which one slot has these frames to read. -/
def Bench.reads (nowUs : UInt32) (i : SlotIdx) (frames : List Inbound) : Call Bench :=
  .update nowUs fun j => if j = i then frames.map (RxFrame.frame 0) else []

/-- A client's id. -/
def Bench.client (n : UInt8) : InstanceId := ⟨[n, 0, 0, 0, 0, 0, 0, 0], rfl⟩

/-- The HELLO of a client that has the catalog already. -/
def Bench.hello (n : UInt8) : HelloMsg := { instanceId := Bench.client n, catalogEtag := some (ByteArr.zero 8) }

/-- The HELLO of a client that shows a token, sixteen times the same byte. -/
def Bench.helloWith (n byte : UInt8) : HelloMsg :=
  { instanceId := Bench.client n, token := some ⟨List.replicate 16 byte, rfl⟩, catalogEtag := some (ByteArr.zero 8) }

end SlopSync
