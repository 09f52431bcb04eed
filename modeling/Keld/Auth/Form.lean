/-
# `Keld.Auth.Form` — form texts and the callback of one flow

The host writes its OAuth requests as forms (`FormBuilder`) and reads the query
of the provider's callback (`correlateCallback`).  A text is a `String` as in the
source; what the source does with its bytes is done with `utf8`.  `&`, `=` and
`#` are ASCII, so looking for them in the bytes is looking for the characters.
-/
import Keld.Guard.Manifest
import Keld.Ipc.Frame
import Keld.Lib.FormText

namespace Keld.Auth

open FormText

inductive PrimitiveError where
  | inputLimit
  | encoding
  | correlation
  | providerCallback (error : String) (description : Option String)
deriving DecidableEq

def maxOauthTextBytes : ℕ := Ipc.maxFrameLen

def maxProviderTextBytes : ℕ := 256

/-! ## Writing -/

/-- `append_bounded`; a length beyond `usize` is beyond the bound as well. -/
def appendBounded (output value : String) : Except PrimitiveError String :=
  if (utf8 output).length + (utf8 value).length > maxOauthTextBytes then .error .inputLimit
  else .ok (output ++ value)

/-- One turn of the loop of `append_encoded`. -/
def appendByte (output : String) (byte : Byte) : Except PrimitiveError String :=
  if kept byte then do
    appendBounded output (← orElseError (fromUtf8 [byte]) .encoding)
  else if byte = 0x20 then appendBounded output "+"
  else do
    appendBounded output (← orElseError (fromUtf8 (percent byte)) .encoding)

def appendEncoded (output value : String) : Except PrimitiveError String :=
  (utf8 value).foldlM appendByte output

namespace FormBuilder

/-- A builder is the text so far; every caller drops it on an error. -/
def startField (form key : String) : Except PrimitiveError String := do
  let form ← (if form = "" then .ok form else appendBounded form "&")
  let form ← appendEncoded form key
  appendBounded form "="

def field (form key value : String) : Except PrimitiveError String := do
  let form ← startField form key
  appendEncoded form value

/-- The scopes after the first. -/
def scopeTail (form : String) (scopes : List String) : Except PrimitiveError String :=
  scopes.foldlM (fun form scope => do appendEncoded (← appendBounded form "+") scope) form

def scopes (form : String) (scopes : List String) : Except PrimitiveError String := do
  let form ← startField form "scope"
  match scopes with
  | [] => .ok form
  | scope :: scopes => scopeTail (← appendEncoded form scope) scopes

end FormBuilder

/-- A new builder, every field, and `finish`. -/
def buildForm (fields : List (String × String)) : Except PrimitiveError String :=
  fields.foldlM (fun form field => FormBuilder.field form field.1 field.2) ""

def refreshTokenForm (clientId refreshToken : String) (scopes : Option (List String)) :
    Except PrimitiveError String := do
  let form ← buildForm [("grant_type", "refresh_token"), ("client_id", clientId),
    ("refresh_token", refreshToken)]
  match scopes with
  | none | some [] => .ok form
  | some scopes => FormBuilder.scopes form scopes

/-! ## Reading -/

def decodeComponent (value : List Byte) : Except PrimitiveError String :=
  orElseError ((unescape value).bind fromUtf8) .correlation

/-- What is put into the map for one part of the query. -/
def decodeField (part : List Byte) : Except PrimitiveError (String × String) := do
  let key ← decodeComponent (cutField part).1
  let value ← decodeComponent (cutField part).2
  return (key, value)

/-- One turn of the loop of `callback_parameters`. -/
def insertField (parameters : List (String × String)) (part : List Byte) :
    Except PrimitiveError (List (String × String)) := do
  let field ← decodeField part
  require (field.1 ≠ "" ∧ field.1 ∉ parameters.map Prod.fst) .correlation
  return parameters ++ [field]

def callbackParameters (query : String) : Except PrimitiveError (List (String × String)) := do
  require ((utf8 query).length ≤ maxOauthTextBytes) .inputLimit
  require (query ≠ "" ∧ 0x23 ∉ utf8 query) .correlation
  ((utf8 query).splitOn ampersand).foldlM insertField []

def equalState (left right : List Byte) : Bool :=
  if left.length ≠ right.length then false
  else (left.zip right).foldl (fun difference pair => difference ||| (pair.1 ^^^ pair.2)) 0 = 0

/-! ## What a provider says -/

def byteLength (text : List Char) : ℕ := (text.map Char.utf8Size).sum

/-- `pop` while the text is too long; the last character stands first. -/
def popTo (limit : ℕ) : List Char → List Char
  | [] => []
  | c :: output => if limit < byteLength (c :: output) then popTo limit output else c :: output

/-- The loop of `sanitize_provider_text`; the last character written stands first. -/
def sanitizeFrom (output : List Char) : List Char → List Char
  | [] => output
  | c :: rest =>
    if byteLength output + c.utf8Size > maxProviderTextBytes then
      ['.', '.', '.'] ++ popTo (maxProviderTextBytes - 3) output
    else sanitizeFrom (c :: output) rest

def sanitizeProviderText (value : String) : String :=
  String.ofList (sanitizeFrom [] (value.toList.filter fun c => !Guard.isControl c)).reverse

/-! ## One flow -/

structure PendingAuthorization where
  verifier : String
  state : String
deriving DecidableEq

structure CorrelatedAuthorization where
  code : String
  verifier : String
deriving DecidableEq

def PendingAuthorization.correlateCallback (self : PendingAuthorization) (query : String) :
    Except PrimitiveError CorrelatedAuthorization := do
  let parameters ← callbackParameters query
  let received ← orElseError (parameters.lookup "state") .correlation
  require (equalState (utf8 received) (utf8 self.state)) .correlation
  match parameters.lookup "code", parameters.lookup "error" with
  | some code, none =>
    if code ≠ "" then .ok { code, verifier := self.verifier } else .error .correlation
  | none, some error =>
    if error ≠ "" then
      .error (.providerCallback (sanitizeProviderText error)
        ((parameters.lookup "error_description").map sanitizeProviderText))
    else .error .correlation
  | _, _ => .error .correlation

def CorrelatedAuthorization.tokenFormUri (self : CorrelatedAuthorization)
    (clientId redirectUri : String) : Except PrimitiveError String :=
  buildForm [("grant_type", "authorization_code"), ("client_id", clientId), ("code", self.code),
    ("redirect_uri", redirectUri), ("code_verifier", self.verifier)]

end Keld.Auth
