import MicroTak.Lib.Text

/-!
# Mission tokens

An HS256 JSON web token with the id, the type and the mission it was issued for.  There is no
expiry. Base64, HMAC and JSON come from libraries; what the server relies on of them is `Lawful`.
-/

namespace MicroTak.Missions

inductive TokenType where
  | subscription
  | invitation
  | access
  deriving DecidableEq

namespace TokenType

def asStr : TokenType → String
  | .subscription => "SUBSCRIPTION"
  | .invitation => "INVITATION"
  | .access => "ACCESS"

def parse (s : String) : Option TokenType :=
  if s = "SUBSCRIPTION" then some .subscription
  else if s = "INVITATION" then some .invitation
  else if s = "ACCESS" then some .access
  else none

@[simp] theorem parse_asStr (type : TokenType) : parse type.asStr = some type := by
  cases type <;> decide

end TokenType

structure MissionClaims where
  id : String
  tokenType : TokenType
  missionName : String
  missionGuid : String
  deriving DecidableEq

/-- What the handlers use of tokens.  The time of issue is in seconds. -/
structure MissionTokenSigner where
  create : (id : String) → TokenType → (missionName missionGuid : String) → (nowUnix : Int) → String
  decode : String → Option MissionClaims

/-- A token decodes to the claims it was created with. -/
structure MissionTokenSigner.Lawful (signer : MissionTokenSigner) : Prop where
  decode_create : ∀ id type missionName missionGuid nowUnix,
    signer.decode (signer.create id type missionName missionGuid nowUnix) =
      some { id, tokenType := type, missionName, missionGuid }

/-- The libraries under the server's key: base64 of a text, the tag of a text and its check, a JSON
string, and a JSON object as its string members. -/
structure Jwt where
  encode : String → String
  decodeText : String → Option String
  sign : String → String
  verify : (input signature : String) → Bool
  quote : String → String
  parseObject : String → Option (String → Option String)

namespace Jwt

variable (jwt : Jwt)

def header : String := "\x7b\"alg\":\"HS256\"\x7d"

def claimsText (id : String) (type : TokenType) (missionName missionGuid : String)
    (nowUnix : Int) : String :=
  "\x7b\"jti\":" ++ jwt.quote id ++ ",\"iat\":" ++ toString nowUnix ++ ",\"sub\":\"" ++
    type.asStr ++ "\",\"iss\":\"\",\"" ++ type.asStr ++ "\":" ++ jwt.quote id ++
      ",\"MISSION_NAME\":" ++
    jwt.quote missionName ++ ",\"MISSION_GUID\":" ++ jwt.quote missionGuid ++ "\x7d"

def create (id : String) (type : TokenType) (missionName missionGuid : String)
    (nowUnix : Int) : String :=
  let signingInput :=
    jwt.encode header ++ "." ++ jwt.encode (jwt.claimsText id type missionName missionGuid nowUnix)
  signingInput ++ "." ++ jwt.sign signingInput

def decode (token : String) : Option MissionClaims :=
  match Text.split '.' token with
  | [head, body, signature] => do
      if ! jwt.verify (head ++ "." ++ body) signature then none
      let parsed ← (jwt.decodeText head).bind jwt.parseObject
      if parsed "alg" ≠ some "HS256" then none
      let claims ← (jwt.decodeText body).bind jwt.parseObject
      let tokenType ← (claims "sub").bind TokenType.parse
      return {
        id := ← claims tokenType.asStr
        tokenType
        missionName := ← claims "MISSION_NAME"
        missionGuid := ← claims "MISSION_GUID" }
  | _ => none

def signer : MissionTokenSigner where
  create := jwt.create
  decode := jwt.decode

/-- What the libraries document: base64 decodes to what was encoded and has no dot, a tag verifies,
and an object that was written out reads back. -/
structure Lawful : Prop where
  decodeText_encode : ∀ text, jwt.decodeText (jwt.encode text) = some text
  encode_dotless : ∀ text, '.' ∉ (jwt.encode text).toList
  sign_dotless : ∀ text, '.' ∉ (jwt.sign text).toList
  verify_sign : ∀ input, jwt.verify input (jwt.sign input) = true
  parse_header : ∃ v, jwt.parseObject header = some v ∧ v "alg" = some "HS256"
  parse_claims : ∀ id type missionName missionGuid nowUnix, ∃ v,
    jwt.parseObject (jwt.claimsText id type missionName missionGuid nowUnix) = some v ∧
      v "sub" = some type.asStr ∧ v type.asStr = some id ∧
      v "MISSION_NAME" = some missionName ∧ v "MISSION_GUID" = some missionGuid

variable {jwt}

theorem Lawful.signer (h : jwt.Lawful) : jwt.signer.Lawful where
  decode_create := by
    intro id type missionName missionGuid nowUnix
    obtain ⟨v, hheader, halg⟩ := h.parse_header
    obtain ⟨w, hclaims, hsub, hid, hname, hguid⟩ :=
      h.parse_claims id type missionName missionGuid nowUnix
    have hsplit : Text.split '.' (jwt.create id type missionName missionGuid nowUnix) =
        [jwt.encode header, jwt.encode (jwt.claimsText id type missionName missionGuid nowUnix),
          jwt.sign (jwt.encode header ++ "." ++
            jwt.encode (jwt.claimsText id type missionName missionGuid nowUnix))] :=
      Text.split_append (h.encode_dotless _) (h.encode_dotless _) _ (h.sign_dotless _)
    show jwt.decode (jwt.create id type missionName missionGuid nowUnix) = _
    rw [decode, hsplit]
    simp [h.verify_sign, h.decodeText_encode, hheader, halg, hclaims, hsub, hid, hname, hguid]

end Jwt

namespace MissionTokenSigner

/-- The bars of a text, written otherwise. -/
def escapeBars : List Char → List Char
  | [] => []
  | c :: rest =>
      if c = '|' then '~' :: 'b' :: escapeBars rest
      else if c = '~' then '~' :: 't' :: escapeBars rest
      else c :: escapeBars rest

def unescapeBars : List Char → List Char
  | [] => []
  | [c] => [c]
  | c :: d :: rest =>
      if c = '~' then (if d = 'b' then '|' else '~') :: unescapeBars rest
      else c :: unescapeBars (d :: rest)

private theorem unescapeBars_cons {c : Char} (hc : c ≠ '~') (rest : List Char) : unescapeBars
    (c :: rest) = c :: unescapeBars rest := by
  cases rest with
  | nil => rfl
  | cons d rest => simp [unescapeBars, hc]

theorem unescapeBars_escapeBars (text : List Char) : unescapeBars (escapeBars text) = text := by
  induction text with
  | nil => rfl
  | cons c rest ih =>
    rw [escapeBars]
    split
    · next h => simp [unescapeBars, ih, h]
    split
    · next h => simp [unescapeBars, ih, h]
    · next h => rw [unescapeBars_cons h, ih]

theorem bar_notMem_escapeBars (text : List Char) : '|' ∉ escapeBars text := by
  induction text with
  | nil => simp [escapeBars]
  | cons c rest ih =>
    rw [escapeBars]
    split
    · simp [ih]
    split
    · simp [ih]
    · next h _ => simp [ih, Ne.symm h]

def TokenType.ofInitial : Option Char → Option TokenType
  | some c =>
      if c = 'S' then some .subscription
      else if c = 'I' then some .invitation
      else if c = 'A' then some .access
      else none
  | none => none

def claimsOfParts : List String → Option MissionClaims
  | [head, name, guid] =>
      (TokenType.ofInitial head.toList.head?).map fun tokenType =>
        { id := String.ofList (unescapeBars (head.toList.drop 1))
          tokenType
          missionName := String.ofList (unescapeBars name.toList)
          missionGuid := String.ofList (unescapeBars guid.toList) }
  | _ => none

/-- A signer for worked examples: the claims, one after the other. -/
def sample : MissionTokenSigner where
  create id type missionName missionGuid _ :=
    String.ofList (type.asStr.toList.take 1 ++ escapeBars id.toList) ++ String.singleton '|' ++
      String.ofList (escapeBars missionName.toList) ++ String.singleton '|' ++
      String.ofList (escapeBars missionGuid.toList)
  decode token := claimsOfParts (Text.split '|' token)

private theorem sample_decode (token : String) :
    sample.decode token = claimsOfParts (Text.split '|' token) := rfl

theorem sample_lawful : sample.Lawful where
  decode_create := by
    intro id type missionName missionGuid nowUnix
    have hsplit : Text.split '|' (sample.create id type missionName missionGuid nowUnix) =
        [String.ofList (type.asStr.toList.take 1 ++ escapeBars id.toList),
          String.ofList (escapeBars missionName.toList),
            String.ofList (escapeBars missionGuid.toList)] := by
      refine Text.split_append ?_ ?_ _ ?_
      · rw [String.toList_ofList, List.mem_append, not_or]
        exact ⟨by cases type <;> decide, bar_notMem_escapeBars _⟩
      · rw [String.toList_ofList]
        exact bar_notMem_escapeBars _
      · rw [String.toList_ofList]
        exact bar_notMem_escapeBars _
    rw [sample_decode, hsplit]
    cases type <;> simp [claimsOfParts, TokenType.ofInitial, TokenType.asStr,
      unescapeBars_escapeBars]

end MissionTokenSigner

end MicroTak.Missions
