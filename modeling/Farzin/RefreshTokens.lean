import Farzin.Table
import Farzin.Transition

set_option autoImplicit false

/- The rows of `refresh_tokens` and the functions of
`identity/token/refresh-token.repository.ts`. Each function is one transaction, and the drawn
tokens and family ids are its arguments. -/
namespace Farzin.Identity

structure RefreshToken where
  userId : Nat
  tokenHash : String
  familyId : Nat
  usedAt : Option Int
  revokedAt : Option Int
  expiresAt : Int
  deriving DecidableEq, Repr

/-- `REFRESH_TTL_MS`: thirty days. -/
def refreshTtlMs : Int := 30 * 24 * 60 * 60 * 1000

/-- Unused, unrevoked and unexpired. -/
def RefreshToken.live (token : RefreshToken) (now : Int) : Bool :=
  decide (token.usedAt = none ∧ token.revokedAt = none ∧ ¬ token.expiresAt < now)

def RefreshToken.revoke (now : Int) (token : RefreshToken) : RefreshToken :=
  { token with revokedAt := some now }

/-- The row of a token that is being exchanged. -/
def RefreshToken.use (now : Int) (token : RefreshToken) : RefreshToken :=
  { token with usedAt := some now, revokedAt := some now }

abbrev TokenTable := List RefreshToken

namespace TokenTable

variable (tokens : TokenTable)

def findToken (tokenHash : String) : Option RefreshToken :=
  Table.findUnique RefreshToken.tokenHash tokens tokenHash

/-- `revokeFamily`; `where` leaves out the rows that are revoked already. -/
def revokeFamily (familyId : Nat) (now : Int) : TokenTable :=
  Table.updateWhere (fun t => t.familyId = familyId ∧ t.revokedAt = none)
    (RefreshToken.revoke now) tokens

def revokeAllForUser (userId : Nat) (now : Int) : TokenTable :=
  Table.updateWhere (fun t => t.userId = userId ∧ t.revokedAt = none)
    (RefreshToken.revoke now) tokens

/-- `persist`; `none` is a violation of the unique key on `tokenHash`. -/
def persist (userId familyId : Nat) (tokenHash : String) (now : Int) : Option TokenTable :=
  match findToken tokens tokenHash with
  | some _ => none
  | none => some (tokens ++ [⟨userId, tokenHash, familyId, none, none, now + refreshTtlMs⟩])

end TokenTable

inductive RotationOutcome where
  | rotated (userId familyId : Nat)
  | invalid
  | expired
  | reuse (userId familyId : Nat)
  deriving DecidableEq, Repr

def RotationOutcome.isRotated : RotationOutcome → Bool
  | .rotated _ _ => true
  | _ => false

/-- The digests of four tokens. -/
def digests (token : String) : String :=
  let known := [
    ("first", "a7937b64b8caa58f03721bb6bacf5c78cb235febe0e70b1b84cd99541461a08e"),
    ("second", "16367aacb67a4a017c8da8ab95682ccb390863780f7114dda0a0e0c55644c7c4"),
    ("third", "b1e99324505bd32da0e1f85dcf5e19a09db0481e8a15f62c41eb320304a8e927"),
    ("fourth", "dc81b1d371a4072be7fcfc3e1939f5bddae8bdc168846a50a78face975b9af63")]
  ((known.find? fun d => d.1 = token).map Prod.snd).getD ""

section Repository

variable (sha256 : String → String)

namespace TokenTable

variable (tokens : TokenTable)

def issueNewFamily (userId familyId : Nat) (token : String) (now : Int) : Option TokenTable :=
  persist tokens userId familyId (sha256 token) now

/-- The row of the compare-and-set in `rotate`. -/
def claims (stored : RefreshToken) (t : RefreshToken) : Bool :=
  decide (t.tokenHash = stored.tokenHash ∧ t.usedAt = none)

/-- `rotate`: the outcome and the rows after it, or `none` when the transaction fails. -/
def rotate (rawToken newToken : String) (now : Int) : Option (RotationOutcome × TokenTable) :=
  match findToken tokens (sha256 rawToken) with
  | none => some (.invalid, tokens)
  | some stored =>
      if stored.usedAt ≠ none ∨ stored.revokedAt ≠ none then
        some (.reuse stored.userId stored.familyId, revokeFamily tokens stored.familyId now)
      else if stored.expiresAt < now then some (.expired, tokens)
      else
        let updated := Table.updateWhere (claims stored) (RefreshToken.use now) tokens
        if tokens.countP (claims stored) ≠ 1 then
          some (.reuse stored.userId stored.familyId, revokeFamily updated stored.familyId now)
        else
          match persist updated stored.userId stored.familyId (sha256 newToken) now with
          | none => none
          | some issued => some (.rotated stored.userId stored.familyId, issued)

/-- `revokeByToken`, the logout. -/
def revokeByToken (rawToken : String) (now : Int) : TokenTable :=
  match findToken tokens (sha256 rawToken) with
  | none => tokens
  | some stored => revokeFamily tokens stored.familyId now

end TokenTable

/-- The calls of the repository. -/
inductive TokenCall where
  | issueNewFamily (userId familyId : Nat) (token : String)
  | rotate (rawToken newToken : String)
  | revokeByToken (rawToken : String)
  | revokeFamily (familyId : Nat)
  | revokeAllForUser (userId : Nat)
  deriving DecidableEq, Repr

/-- A call at some time. A family id is drawn anew for each family. -/
def TokenTable.run (tokens : TokenTable) (now : Int) : TokenCall → Option TokenTable
  | .issueNewFamily userId familyId token =>
      if tokens.any fun t => t.familyId = familyId then none
      else tokens.issueNewFamily sha256 userId familyId token now
  | .rotate rawToken newToken => (tokens.rotate sha256 rawToken newToken now).map Prod.snd
  | .revokeByToken rawToken => some (tokens.revokeByToken sha256 rawToken now)
  | .revokeFamily familyId => some (tokens.revokeFamily familyId now)
  | .revokeAllForUser userId => some (tokens.revokeAllForUser userId now)

structure TokenLabel where
  call : TokenCall
  now : Int
  deriving DecidableEq, Repr

def tokenTables : Transition.System TokenTable TokenLabel where
  initial tokens := tokens = []
  step tokens label := tokens.run sha256 label.now label.call

end Repository

end Farzin.Identity
