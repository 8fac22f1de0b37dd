import Mytools.Keyring.DBus
import Mytools.Lib.Cbc
import Mytools.Lib.Result

/-!
# Secrets in transport

The padding and the encryption of `cmd/wsl-keyring/crypto.go`, and `encryptSecret`. AES in CBC mode
is a parameter.
-/

namespace Keyring

open Lib

/-- `aes.BlockSize` -/
def blockSize : Nat := 16

/-! ## Padding -/

/-- `PKCS7Pad` -/
def pkcs7Pad (data : Bytes) (blockSize : Nat) : Bytes :=
  let padding := blockSize - data.length % blockSize
  data ++ List.replicate padding (UInt8.ofNat padding)

/-- `subtle.ConstantTimeByteEq`, an `int`. -/
def constantTimeByteEq (x y : UInt8) : BitVec 64 :=
  ((((x ^^^ y).toUInt32 - 1) >>> 31).toBitVec).setWidth 64

/-- The loop of `PKCS7Unpad`. -/
def paddingCheck (padding : UInt8) (check : BitVec 64) (data : Bytes) : BitVec 64 :=
  data.foldl (fun check b => check ||| (constantTimeByteEq b padding - 1)) check

def pkcs7Unpad (data : Bytes) : Except Err Bytes :=
  match data.getLast? with
  | none => .error (.failed "empty data")
  | some last =>
    let padding := last.toNat
    if padding = 0 ∨ padding > blockSize then .error (.failed "invalid padding size")
    else if data.length < padding then .error (.failed "data shorter than padding")
    else if paddingCheck (UInt8.ofNat padding) 0 (data.drop (data.length - padding)) ≠ 0 then
      .error (.failed "invalid PKCS7 padding")
    else .ok (data.take (data.length - padding))

/-! ## Encryption -/

/-- `cipher.NewCBCEncrypter` and `cipher.NewCBCDecrypter` with `CryptBlocks`, over
`aes.NewCipher`. -/
structure Cipher where
  encryptCBC : (key iv text : Bytes) → Bytes
  decryptCBC : (key iv text : Bytes) → Bytes

/-- With a 16-byte key and IV, whole blocks are encrypted to as many bytes and decrypted to what
they were. -/
structure Cipher.Inverts (C : Cipher) : Prop where
  length : ∀ {key iv text}, key.length = 16 → iv.length = blockSize → blockSize ∣ text.length →
    (C.encryptCBC key iv text).length = text.length
  inverse : ∀ {key iv text}, key.length = 16 → iv.length = blockSize → blockSize ∣ text.length →
    C.decryptCBC key iv (C.encryptCBC key iv text) = text

/-- What `io.ReadFull` puts into an IV. -/
structure IV where
  bytes : Bytes
  length : bytes.length = blockSize

/-- `aes.NewCipher` -/
def checkKey (key : Bytes) : Except Err Unit :=
  require (key.length ∈ [16, 24, 32]) (.failed s!"crypto/aes: invalid key size {key.length}")

/-- `AESCBCEncrypt`; `random` is the IV that is read from the random source. -/
def aesCBCEncrypt (C : Cipher) (random : Except Err IV) (key plaintext : Bytes) :
    Except Err (Bytes × Bytes) := do
  checkKey key
  let padded := pkcs7Pad plaintext blockSize
  let iv ← random
  pure (iv.bytes, C.encryptCBC key iv.bytes padded)

def aesCBCDecrypt (C : Cipher) (key iv ciphertext : Bytes) : Except Err Bytes := do
  require (ciphertext.length % blockSize = 0) (.failed "ciphertext is not a multiple of block size")
  checkKey key
  pkcs7Unpad (C.decryptCBC key iv ciphertext)

/-- The parameters and the value of a secret in a session. -/
def ServiceObject.encryptSecret (C : Cipher) (random : Except Err IV) (sess : SessionState)
    (plaintext : Bytes) : Except Err (Bytes × Bytes) :=
  match sess.aesKey with
  | some key =>
    if sess.algorithm = algorithmDH then aesCBCEncrypt C random key plaintext
    else .ok ([], plaintext)
  | none => .ok ([], plaintext)

end Keyring
