import Chhaya.Crypto.Primitives
import Chhaya.Server.Program

/-!
# The routes of accounts

`backend/server/src/identity-proof.ts`, `session.ts` and the routes under `/auth` of `routes.ts`: a challenge proves that
the client holds the private key of its identity, and a session is stored for a proof that was accepted.

- `createIdentityChallenge`, `consumeIdentityChallenge`: a challenge is made for a key and is taken once.
- `register`, `login`: the two ways to a session.
-/

namespace Chhaya

namespace Server

open Zod

/-! ## Schemas -/

/-- `^05[0-9a-f]{64}$`. -/
def isChhayaId (s : String) : Bool :=
  match s.toList with
  | '0' :: '5' :: r => r.length == 64 && r.all isLowerHexDigit
  | _ => false

structure ChallengeRequest where
  publicKey : String
  deviceId : String
  purpose : String

/-- The schema of `POST /auth/challenge`. -/
def challengeSchema : Schema ChallengeRequest := object fun o =>
  ChallengeRequest.mk <$> property o "publicKey" (string [regex isHex64]) <*> property o "deviceId" (string [uuid])
    <*> property o "purpose" (enum ["register", "login"])

structure Register where
  challengeId : String
  identityProof : String
  chhayaId : String
  displayName : String
  publicKey : String
  encryptedPrivateKey : String
  recoveryPhraseHash : String
  deviceId : String
  deviceName : Option String
  platform : Option String
  fcmToken : Option String

def registerSchema : Schema Register := object fun o =>
  Register.mk <$> property o "challengeId" (string [uuid])
    <*> property o "identityProof" (string [regex isHex64])
    <*> property o "chhayaId" (string [regex isChhayaId])
    <*> property o "displayName" (string [minLength 1, maxLength 100])
    <*> property o "publicKey" (string [regex isHex64])
    <*> property o "encryptedPrivateKey" (string [minLength 1])
    <*> property o "recoveryPhraseHash" (string (exactLength 64))
    <*> property o "deviceId" (string [uuid])
    <*> property o "deviceName" (optional (string []))
    <*> property o "platform" (optional (string []))
    <*> property o "fcmToken" (optional (string []))

structure Login where
  challengeId : String
  identityProof : String
  chhayaId : String
  recoveryPhraseHash : String
  deviceId : String
  deviceName : Option String
  platform : Option String
  fcmToken : Option String

def loginSchema : Schema Login := object fun o =>
  Login.mk <$> property o "challengeId" (string [uuid])
    <*> property o "identityProof" (string [regex isHex64])
    <*> property o "chhayaId" (string [regex isChhayaId])
    <*> property o "recoveryPhraseHash" (string (exactLength 64))
    <*> property o "deviceId" (string [uuid])
    <*> property o "deviceName" (optional (string []))
    <*> property o "platform" (optional (string []))
    <*> property o "fcmToken" (optional (string []))

/-- What a register request presents. -/
def Register.claim (data : Register) : Claim :=
  ⟨data.challengeId, data.publicKey, data.deviceId, "register", data.identityProof⟩

/-- What a login request presents. The key is the identifier without its `05`. -/
def Login.claim (data : Login) : Claim :=
  ⟨data.challengeId, String.ofList (data.chhayaId.toList.drop 2), data.deviceId, "login", data.identityProof⟩

/-! ## Challenges -/

section Handlers

variable (platform : Platform)

/-- The bytes of a hexadecimal text, `Buffer.from(text, 'hex')`. -/
def hexBytes : List Char → Bytes
  | c :: c' :: r =>
    match Json.hexValue c, Json.hexValue c' with
    | some hi, some lo => UInt8.ofNat (hi * 16 + lo) :: hexBytes r
    | _, _ => []
  | _ => []

/-- The X25519 secret of a server key and a client's public key. -/
def sharedSecret (privateKey : Bytes) (publicKey : String) : Bytes :=
  platform.x25519 privateKey (hexBytes publicKey.toList)

/-- The text that is proved. -/
def transcript (purpose challengeId deviceId publicKey serverPublicKey nonce : String) : String :=
  "|".intercalate ["chhaya-auth-v1", purpose, challengeId, deviceId, publicKey, serverPublicKey, nonce]

/-- `createHmac('sha256', shared).update(context).digest('hex')`. -/
def identityProof (shared : Bytes) (context : String) : String := hexOf (platform.hmac shared (utf8Encode context))

/-- The challenge of a server key, an id and a nonce. -/
def challengeOf (privateKey : Bytes) (challengeId : Uuid) (nonce : Bytes) (publicKey deviceId purpose : String) : Challenge :=
  let serverPublicKey := hexOf (platform.x25519Public privateKey)
  let context := transcript purpose challengeId.text deviceId publicKey serverPublicKey (hexOf nonce)
  { challengeId, publicKey, deviceId, purpose, serverPublicKey, nonce := hexOf nonce, context
    proofHash := platform.tokenHash (identityProof platform (sharedSecret platform privateKey publicKey) context) }

/-- `createIdentityChallenge`. -/
def createIdentityChallenge (publicKey deviceId purpose : String) : Prog Challenge := do
  let pair ← randomBytes 32
  if (sharedSecret platform pair.1 publicKey).all (· == 0) then raise "Invalid identity"
  else do
    let challengeId ← randomUUID
    let nonce ← randomBytes 32
    return challengeOf platform pair.1 challengeId nonce.1 publicKey deviceId purpose

/-- `issueIdentityChallenge`. -/
def issueIdentityChallenge (publicKey deviceId purpose : String) : Prog Challenge := do
  let challenge ← createIdentityChallenge platform publicKey deviceId purpose
  sql .deleteExpiredChallenges
  sql (.insertChallenge challenge)
  return challenge

/-- `consumeIdentityChallenge`. -/
def consumeIdentityChallenge (claim : Claim) : Prog Bool := do
  match ← sql (.consumeChallenge claim.challengeId claim.publicKey claim.deviceId claim.purpose) with
  | none => return false
  | some proofHash => return proofHash == platform.tokenHash claim.identityProof

/-! ## Credentials and sessions -/

/-- `hashCredential`. -/
def hashCredential (proof : String) : Prog String := do
  let salt ← randomBytes 16
  return ":".intercalate ["scrypt", hexOf salt.1, platform.scrypt proof (hexOf salt.1)]

/-- `verifyCredential`. -/
def verifyCredential (proof stored : String) : Bool :=
  match stored.splitOn ":" with
  | algorithm :: salt :: digest :: _ =>
    algorithm == "scrypt" && salt != "" && isHex64 digest && platform.scrypt proof salt == digest
  | _ => false

/-- `issueSession`. -/
def issueSession (userId : Uuid) (claim : Claim) : Prog String := do
  let token ← randomBytes 32
  sql (.insertSession (platform.tokenHash (hexOf token.1)) userId claim)
  return hexOf token.1

/-! ## Handlers -/

/-- `POST /auth/challenge`. -/
def postChallenge (body : Option Json) : Prog Response := do
  let data ← parse challengeSchema body
  match ← (issueIdentityChallenge platform data.publicKey data.deviceId data.purpose).attempt with
  | .ok c => return ⟨200, .challenge c.challengeId c.serverPublicKey c.nonce c.context⟩
  | .error _ => failure 400 "Invalid identity challenge request"

/-- `if (data.fcmToken) await registerFCMToken(...)`. -/
def registerToken (userId : Uuid) (deviceId : String) (fcmToken : Option String) : Prog Unit :=
  match orNull fcmToken with
  | some token => sql (.registerFCMToken userId deviceId token)
  | none => return ()

/-- The account and the session of a register request whose proof was accepted. -/
def createAccount (data : Register) : Prog Response := do
  if ← sql (.userExists data.chhayaId) then failure 409 "User already exists"
  else if data.chhayaId ≠ "05" ++ data.publicKey then failure 400 "Identity does not match key"
  else do
    let userId ← randomUUID
    let recoveryPhraseHash ← hashCredential platform data.recoveryPhraseHash
    sql (.insertAccount ⟨userId, data.chhayaId, data.displayName, data.publicKey, data.encryptedPrivateKey, recoveryPhraseHash⟩
      ⟨userId, data.deviceId, orElse data.deviceName "Primary", orElse data.platform "unknown", orNull data.fcmToken,
        data.publicKey⟩)
    registerToken userId data.deviceId data.fcmToken
    let token ← issueSession platform userId data.claim
    return ⟨201, .session userId token⟩

/-- The part of `POST /auth/register` in its `try`. -/
def register (body : Option Json) : Prog Response := do
  let data ← parse registerSchema body
  if ← consumeIdentityChallenge platform data.claim then createAccount platform data
  else failure 401 "Identity proof invalid or expired"

/-- The device and the session of a login request whose credentials were accepted. -/
def openSession (data : Login) (userId : Uuid) (publicKey : String) : Prog Response := do
  let device ← sql (.upsertDevice ⟨userId, data.deviceId, orElse data.deviceName "Device", orElse data.platform "unknown",
    orNull data.fcmToken, publicKey⟩)
  if device ≠ 1 then failure 409 "Device belongs to another account"
  else do
    registerToken userId data.deviceId data.fcmToken
    sql (.touchLastSeen userId)
    let token ← issueSession platform userId data.claim
    return ⟨200, .session userId token⟩

/-- The credentials of a login request whose proof was accepted. -/
def checkCredentials (data : Login) : Prog Response := do
  match ← sql (.activeUser data.chhayaId) with
  | none => failure 401 "Invalid credentials"
  | some (userId, publicKey, recoveryPhraseHash) =>
    if verifyCredential platform data.recoveryPhraseHash recoveryPhraseHash then openSession platform data userId publicKey
    else failure 401 "Invalid credentials"

/-- The part of `POST /auth/login` in its `try`. -/
def login (body : Option Json) : Prog Response := do
  let data ← parse loginSchema body
  if ← consumeIdentityChallenge platform data.claim then checkCredentials platform data
  else failure 401 "Identity proof invalid or expired"

/-- The `catch` of `POST /auth/register` and `POST /auth/login`. -/
def catching (failed : String) (handler : Prog Response) : Prog Response := do
  match ← handler.attempt with
  | .ok res => return res
  | .error (.zod issues) => return ⟨400, .invalid "Invalid input" issues⟩
  | .error (.error _) => failure 500 failed

/-- `POST /auth/register`. -/
def postRegister (body : Option Json) : Prog Response := catching "Registration failed" (register platform body)

/-- `POST /auth/login`. -/
def postLogin (body : Option Json) : Prog Response := catching "Login failed" (login platform body)

/-- `POST /auth/logout`. -/
def postLogout (authorization : Option String) : Prog Response := do
  sql (.deleteSession (platform.tokenHash ((authorization.bind bearer).getD "")))
  return ⟨200, .success⟩

end Handlers

end Server

end Chhaya
