import ChatServices.Accounts
import ChatServices.Base64

/-! SASL sessions and the four mechanism providers: PLAIN, AUTHCOOKIE, EXTERNAL and
ECDSA-NIST256P-CHALLENGE, each a `mech_start` and a `mech_step` on the session. -/
namespace ChatServices.Sasl
open ChatServices.Lib ChatServices.Lib.Mask ChatServices.Text

def bufsize : Nat := 1024

inductive Rc where
  | fail | more | done
  deriving DecidableEq, Repr

/-- An `EC_KEY` of the curve; `point` is absent until `o2i_ECPublicKey` sets it. -/
structure EcKey where
  point : Option CString
  deriving DecidableEq

/-- What `ECDSA_verify` answers: 1, 0, and -1 on an error. -/
inductive VerifyResult where
  | valid | invalid | error
  deriving DecidableEq, Repr

def VerifyResult.toInt : VerifyResult → Int
  | .valid => 1
  | .invalid => 0
  | .error => -1

inductive EcdsaStep where
  | init | accname | response
  deriving DecidableEq, Repr

structure EcdsaSession where
  step : EcdsaStep
  pubkey : EcKey
  challenge : CString
  deriving DecidableEq

inductive Mechanism where
  | plain | authcookie | external | ecdsa
  deriving DecidableEq, Repr

def Mechanism.name : Mechanism → CString
  | .plain => "PLAIN".toList
  | .authcookie => "AUTHCOOKIE".toList
  | .external => "EXTERNAL".toList
  | .ecdsa => "ECDSA-NIST256P-CHALLENGE".toList

/-- `mechptr` with `mechdata`: only the ECDSA mechanism keeps data. -/
inductive MechState where
  | plain | authcookie | external
  | ecdsa (s : EcdsaSession)
  deriving DecidableEq

def MechState.mechanism : MechState → Mechanism
  | .plain => .plain
  | .authcookie => .authcookie
  | .external => .external
  | .ecdsa _ => .ecdsa

structure Session where
  buf : Option CString
  markedForDeletion : Bool
  needLog : Bool
  mech : Option MechState
  username : Option CString
  certfp : Option CString
  authzid : Option CString
  host : Option CString
  ip : Option CString
  tls : Bool
  deriving DecidableEq

/-- A session as `make_session` zeroes it. -/
def Session.fresh : Session :=
  ⟨none, false, false, none, none, none, none, none, none, false⟩

structure World where
  verifyPassword : MyUserRef → CString → Bool
  authcookieFind : CString → MyUserRef → Bool
  mycertfpFind : CString → Option MyUserRef
  userCanLogin : MyUserRef → Bool
  hasPrivMyuser : MyUserRef → CString → Bool
  saslMayImpersonate : MyUserRef → MyUserRef → Bool
  randPseudoBytes : CString
  /-- the public point `o2i_ECPublicKey` reads from these bytes -/
  octToPoint : CString → Option CString
  ecdsaVerify : CString → CString → EcKey → VerifyResult
  memoryAfter : CString
  currtime : Nat

structure MechResult where
  rc : Rc
  session : Session
  out : CString

/- A step that changes nothing and fails. -/
def failed (p : Session) : MechResult := ⟨.fail, p, []⟩

/-- PLAIN `mech_step`: authzid, authcid and password separated by NULs. -/
def plainStep (cfg : Config) (w : World) (db : Accounts) (p : Session) (message : CString) :
    MechResult :=
  match splitNul message with
  | none => failed p
  | some (authz, message) =>
    if authz.length > 255 then failed p
    else if message.length = 0 then failed p
    else
      match splitNul message with
      | none => failed p
      | some (authc, message) =>
        if authc.length > 255 then failed p
        else if message.length = 0 then failed p
        else
          let pass := cstr message
          if pass.length > 255 then failed p
          else
            match myuserFindByNick cfg db authc with
            | none => failed p
            | some mu =>
              if ((db.get mu).map (fun m => test m.flags muNopassword)).getD false then failed p
              else
                let p := { p with username := some authc, authzid := some authz }
                if w.verifyPassword mu pass then ⟨.done, p, []⟩ else failed p

/-- AUTHCOOKIE `mech_step`. The string calls read on past the message, and `len`
is a `size_t` that wraps. -/
def authcookieStep (cfg : Config) (w : World) (db : Accounts) (p : Session) (message : CString) :
    MechResult :=
  let memory := message ++ w.memoryAfter
  let authz := cstr memory
  if authz.length > 255 then failed p
  else
    let len := (message.length + 2 ^ 64 - (authz.length + 1)) % 2 ^ 64
    if len = 0 then failed p
    else
      let memory := memory.drop (authz.length + 1)
      let authc := cstr memory
      if authc.length > 255 then failed p
      else
        let len := (len + 2 ^ 64 - (authc.length + 1)) % 2 ^ 64
        if len = 0 then failed p
        else
          let memory := memory.drop (authc.length + 1)
          if (cstr memory).length > 255 then failed p
          else
            let cookie := (cstr memory).take len
            match myuserFindByNick cfg db authc with
            | none => failed p
            | some mu =>
              let p := { p with username := some authc, authzid := some authz }
              if w.authcookieFind cookie mu then ⟨.done, p, []⟩ else failed p

/-- EXTERNAL `mech_step`: the account of the certificate, the message as authzid. -/
def externalStep (w : World) (db : Accounts) (p : Session) (message : CString) : MechResult :=
  match p.certfp with
  | none => failed p
  | some certfp =>
    match w.mycertfpFind certfp with
    | none => failed p
    | some mu =>
      let name := ((db.get mu).map MyUser.name).getD []
      ⟨.done, { p with username := some name, authzid := some (cstr (message ++ w.memoryAfter)) }, []⟩

def ecdsaStart : EcdsaSession := ⟨.accname, ⟨none⟩, []⟩

def pubkeyMetadata (mu : MyUser) : Option CString :=
  match mu.metadataFind "private:pubkey".toList with
  | some md => some md
  | none => mu.metadataFind "pubkey".toList

/-- `o2i_ECPublicKey` on a key: bytes that are no point leave it as it was. -/
def o2iECPublicKey (w : World) (key : EcKey) (raw : CString) : EcKey :=
  match w.octToPoint raw with
  | some point => ⟨some point⟩
  | none => key

def accname (message : CString) : CString :=
  match splitNul message with
  | none => message
  | some (name, _) => name

def accnameAuthzid (p : Session) (message : CString) : Option CString :=
  match splitNul message with
  | none => p.authzid
  | some (_, rest) => some (cstr rest)

/-- ECDSA `mech_step_accname`. -/
def mechStepAccname (cfg : Config) (w : World) (db : Accounts) (p : Session) (s : EcdsaSession)
    (message : CString) : MechResult :=
  let p := { p with username := some (accname message), authzid := accnameAuthzid p message }
  match myuserFindByNick cfg db (accname message) with
  | none => failed p
  | some mu =>
    match (db.get mu).bind pubkeyMetadata with
    | none => failed p
    | some md =>
      match Base64.decode md bufsize with
      | none => failed p
      | some raw =>
        let s := { s with pubkey := o2iECPublicKey w s.pubkey raw, challenge := w.randPseudoBytes,
                          step := .response }
        ⟨.more, { p with mech := some (.ecdsa s) }, s.challenge⟩

/-- ECDSA `mech_step_response`: the C condition is `!ECDSA_verify (..)`. -/
def mechStepResponse (w : World) (p : Session) (s : EcdsaSession) (message : CString) :
    MechResult :=
  if (w.ecdsaVerify s.challenge message s.pubkey).toInt = 0 then failed p else ⟨.done, p, []⟩

def ecdsaMechStep (cfg : Config) (w : World) (db : Accounts) (p : Session) (s : EcdsaSession)
    (message : CString) : MechResult :=
  match s.step with
  | .init => failed p
  | .accname => mechStepAccname cfg w db p s message
  | .response => mechStepResponse w p s message

/-- Every provider's `mech_start` answers that it wants more. -/
def mechStart (m : Mechanism) (p : Session) : MechResult :=
  let st := match m with
    | .plain => MechState.plain
    | .authcookie => .authcookie
    | .external => .external
    | .ecdsa => .ecdsa ecdsaStart
  ⟨.more, { p with mech := some st }, []⟩

def mechStep (cfg : Config) (w : World) (db : Accounts) (p : Session) (m : MechState)
    (message : CString) : MechResult :=
  match m with
  | .plain => plainStep cfg w db p message
  | .authcookie => authcookieStep cfg w db p message
  | .external => externalStep w db p message
  | .ecdsa s => ecdsaMechStep cfg w db p s message

end ChatServices.Sasl
