import SlopSync.Messages
import SlopSync.Sha256

/-! # HMAC-SHA-256

`wire/hmac_sha256.hpp`: the keyed hash of the pairing ceremony and of token proofs.  A proof is its first 16 bytes. -/

namespace SlopSync

/-- The key of one block: a longer one is hashed first. -/
def hmacKey (key : Bytes) : Bytes :=
  let k := if Sha256.kBlockBytes < key.length then Sha256.hash key else key
  k ++ List.replicate (Sha256.kBlockBytes - k.length) 0

def hmacSha256 (key msg : Bytes) : Bytes :=
  let ipad := (hmacKey key).map (· ^^^ 0x36)
  let opad := (hmacKey key).map (· ^^^ 0x5C)
  let innerHash := ((({} : Sha256).update ipad).update msg).final
  ((({} : Sha256).update opad).update innerHash).final

theorem length_hmacSha256 (key msg : Bytes) : (hmacSha256 key msg).length = 32 :=
  Sha256.length_final (Sha256.length_update _ (Sha256.length_update _ rfl))

/-- The first 16 bytes of the MAC of a nonce. -/
def nonceProof (key : Bytes) (nonce : Nonce) : Token :=
  ⟨(hmacSha256 key nonce.val).take 16, by rw [List.length_take, length_hmacSha256]; rfl⟩

/-- The proof of the PIN. -/
def pairingPinProof (pin : Bytes) (nonce : Nonce) : Token := nonceProof pin nonce

/-- The proof of a token, as `SoftwareCrypto` computes it: it always answers. -/
def softwareHmac (token : Token) (nonce : Nonce) : Option Token := some (nonceProof token.val nonce)

end SlopSync
