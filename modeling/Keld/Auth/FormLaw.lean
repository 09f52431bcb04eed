/-
# `Keld.Auth.FormLaw` — a form is read back, and a callback belongs to its flow

`Extends output bytes r` says all there is to say about a bounded append: `r` is
the longer text, or the refusal if the longer text is over the bound.  It
composes, so a whole form either is `formText` of its fields or is refused for
its length (`buildForm_extends`).  Reading goes the other way: the parts of a
query are the parts that were written, and the map of `callbackParameters` is
there exactly if no key is empty and none occurs twice.  So a callback and the
token form made of it carry one code, under one verifier (`token_forms_read_back`).
-/
import Keld.Auth.Form
import Keld.Lib.Utf8

namespace Keld.Auth

open FormText List PrimitiveError PendingAuthorization

/-! ## Writing -/

theorem utf8_append (left right : String) : utf8 (left ++ right) = utf8 left ++ utf8 right := by
  rw [utf8_eq_flatMap, utf8_eq_flatMap, utf8_eq_flatMap, String.toList_append, flatMap_append]

/-- The text with the bytes behind it, or the refusal of their length. -/
def Extends (output : String) (bytes : List Byte) (r : Except PrimitiveError String) : Prop :=
  (maxOauthTextBytes < (utf8 output).length + bytes.length ∧ r = .error .inputLimit) ∨
    ((utf8 output).length + bytes.length ≤ maxOauthTextBytes ∧
      ∃ text, r = .ok text ∧ utf8 text = utf8 output ++ bytes)

namespace Extends

variable {output : String} {xs ys : List Byte} {r : Except PrimitiveError String}

theorem refl (h : (utf8 output).length ≤ maxOauthTextBytes) : Extends output [] (.ok output) :=
  .inr ⟨h, output, rfl, (append_nil _).symm⟩

theorem bind {f : String → Except PrimitiveError String} (hr : Extends output xs r)
    (hf : ∀ text, utf8 text = utf8 output ++ xs → (utf8 text).length ≤ maxOauthTextBytes →
      Extends text ys (f text)) : Extends output (xs ++ ys) (r >>= f) := by
  rcases hr with ⟨hlen, rfl⟩ | ⟨hlen, text, rfl, ht⟩
  · refine .inl ⟨?_, rfl⟩
    rw [length_append]
    omega
  · have hsum : (utf8 text).length + ys.length = (utf8 output).length + (xs ++ ys).length := by
      rw [ht, length_append, length_append, Nat.add_assoc]
    have hle : (utf8 text).length ≤ maxOauthTextBytes := by
      rw [ht, length_append]
      exact hlen
    rcases hf text ht hle with ⟨hl, he⟩ | ⟨hfi, text', hok, ht'⟩
    · exact .inl ⟨hsum ▸ hl, he⟩
    · refine .inr ⟨hsum ▸ hfi, text', hok, ?_⟩
      rw [ht', ht, append_assoc]

/-- Refused exactly for its length, and for nothing else. -/
theorem error_iff (hr : Extends output xs r) (err : PrimitiveError) :
    r = .error err ↔ err = .inputLimit ∧ maxOauthTextBytes < (utf8 output).length + xs.length := by
  rcases hr with ⟨hl, rfl⟩ | ⟨hl, text, rfl, -⟩
  · constructor
    · rintro ⟨⟩
      exact ⟨rfl, hl⟩
    · rintro ⟨rfl, -⟩
      rfl
  · constructor
    · rintro ⟨⟩
    · rintro ⟨-, hlo⟩
      exact absurd hlo (Nat.not_lt.mpr hl)

theorem ok (hr : Extends output xs r) {text : String} (h : r = .ok text) :
    (utf8 output).length + xs.length ≤ maxOauthTextBytes ∧ utf8 text = utf8 output ++ xs := by
  rcases hr with ⟨-, rfl⟩ | ⟨hl, text', rfl, ht⟩
  · cases h
  · cases h
    exact ⟨hl, ht⟩

end Extends

theorem appendBounded_extends (output value : String) :
    Extends output (utf8 value) (appendBounded output value) := by
  rw [appendBounded]
  split_ifs with hl
  · exact .inl ⟨hl, rfl⟩
  · exact .inr ⟨Nat.not_lt.mp hl, _, rfl, utf8_append output value⟩

theorem appendAscii_extends (output : String) {bytes : List Byte} (h : ∀ b ∈ bytes, b < 0x80) :
    Extends output bytes
      (orElseError (fromUtf8 bytes) .encoding >>= fun value => appendBounded output value) := by
  obtain ⟨value, hva⟩ := isText_iff.mp (isText_of_ascii h)
  rw [hva, ← fromUtf8_eq_some.mp hva]
  exact appendBounded_extends output value

theorem appendByte_extends (output : String) (byte : Byte) :
    Extends output (escapeByte byte) (appendByte output byte) := by
  have hac : ∀ b ∈ escapeByte byte, b < 0x80 := by
    intro b hb
    have hm : b ∈ escape [byte] := by rwa [escape, flatMap_singleton]
    exact (mem_escape b hm).ascii
  rw [appendByte]
  rw [escapeByte] at hac ⊢
  split_ifs at hac ⊢ with hk hbl
  · exact appendAscii_extends output hac
  · exact appendBounded_extends output "+"
  · exact appendAscii_extends output hac

theorem appendEncoded_extends (value : String) {output : String}
    (h : (utf8 output).length ≤ maxOauthTextBytes) :
    Extends output (escape (utf8 value)) (appendEncoded output value) := by
  rw [appendEncoded]
  induction utf8 value generalizing output with
  | nil => exact .refl h
  | cons byte bytes ih =>
    rw [foldlM_cons, escape, flatMap_cons]
    exact (appendByte_extends output byte).bind fun text _ hl => ih hl

/-- What stands in front of a field. -/
def separator (form : String) : List Byte := if form = "" then [] else [ampersand]

theorem startField_extends (key : String) {form : String}
    (h : (utf8 form).length ≤ maxOauthTextBytes) :
    Extends form (separator form ++ (escape (utf8 key) ++ [equals]))
      (FormBuilder.startField form key) := by
  have hsep : Extends form (separator form)
      (if form = "" then .ok form else appendBounded form "&") := by
    rw [separator]
    split_ifs
    · exact .refl h
    · exact appendBounded_extends form "&"
  exact hsep.bind fun text _ hl => (appendEncoded_extends key hl).bind fun text' _ _ =>
    appendBounded_extends text' "="

theorem field_extends (key value : String) {form : String}
    (h : (utf8 form).length ≤ maxOauthTextBytes) :
    Extends form (separator form ++ fieldText (utf8 key, utf8 value))
      (FormBuilder.field form key value) := by
  have hby : separator form ++ fieldText (utf8 key, utf8 value) =
      separator form ++ (escape (utf8 key) ++ [equals]) ++ escape (utf8 value) := by
    rw [fieldText, append_assoc, append_assoc, singleton_append]
  rw [hby]
  exact (startField_extends key h).bind fun text _ hl => appendEncoded_extends value hl

def fieldBytes (field : String × String) : List Byte × List Byte := (utf8 field.1, utf8 field.2)

theorem ne_empty_of_field {text : String} {front : List Byte} {field : List Byte × List Byte}
    (h : utf8 text = front ++ fieldText field) : text ≠ "" := by
  rintro rfl
  rw [utf8_empty] at h
  have hm : equals ∈ front ++ fieldText field :=
    mem_append_right _ (mem_append_right _ mem_cons_self)
  rw [← h] at hm
  cases hm

/-- Behind the first field every field has its `&`. -/
theorem fields_extends (fields : List (String × String)) {form : String} (hne : form ≠ "")
    (h : (utf8 form).length ≤ maxOauthTextBytes) :
    Extends form (fields.flatMap fun field => ampersand :: fieldText (fieldBytes field))
      (fields.foldlM (fun form field => FormBuilder.field form field.1 field.2) form) := by
  induction fields generalizing form with
  | nil => exact .refl h
  | cons field fields ih =>
    have hf := field_extends field.1 field.2 h
    rw [separator, if_neg hne] at hf
    rw [foldlM_cons, flatMap_cons]
    refine hf.bind fun text ht hl => ih ?_ hl
    rw [← append_assoc] at ht
    exact ne_empty_of_field ht

theorem formText_cons (field : List Byte × List Byte) (fields : List (List Byte × List Byte)) :
    formText (field :: fields) =
      fieldText field ++ fields.flatMap fun field => ampersand :: fieldText field := by
  induction fields generalizing field with
  | nil =>
    rw [formText, map_singleton, intercalate_singleton, flatMap_nil, append_nil]
  | cons next fields ih =>
    rw [formText, map_cons, intercalate_cons_of_ne_nil (by simp), ← formText, ih next,
      flatMap_cons, append_assoc, singleton_append, cons_append]

theorem buildForm_extends (fields : List (String × String)) :
    Extends "" (formText (fields.map fieldBytes)) (buildForm fields) := by
  cases fields with
  | nil => exact .refl (Nat.zero_le _)
  | cons field fields =>
    have hf := @field_extends field.1 field.2 "" (Nat.zero_le _)
    rw [separator, if_pos rfl, nil_append] at hf
    rw [buildForm, foldlM_cons, map_cons, formText_cons, flatMap_map]
    exact hf.bind fun text ht hl =>
      fields_extends fields (ne_empty_of_field ht) hl

/-- The fields a refresh form is read back as; the scopes stand in one of them. -/
def refreshFields (clientId refreshToken : String) (scopes : List String) :
    List (String × String) :=
  [("grant_type", "refresh_token"), ("client_id", clientId), ("refresh_token", refreshToken)] ++
    if scopes = [] then [] else [("scope", " ".intercalate scopes)]

theorem appendEncoded_append (form left right : String) :
    appendEncoded form (left ++ right) = appendEncoded form left >>= (appendEncoded · right) := by
  rw [appendEncoded, utf8_append, foldlM_append]
  rfl

theorem appendEncoded_blank (form : String) : appendEncoded form " " = appendBounded form "+" := by
  rw [appendEncoded, show utf8 " " = [0x20] from by decide +kernel, foldlM_cons]
  exact bind_pure _

/-- A blank is written as the `+` that stands between two scopes. -/
theorem scopeTail_eq (form scope : String) (scopes : List String) :
    (appendEncoded form scope >>= (FormBuilder.scopeTail · scopes)) =
      appendEncoded form (" ".intercalate (scope :: scopes)) := by
  induction scopes generalizing form scope with
  | nil =>
    rw [String.intercalate_singleton]
    exact bind_pure _
  | cons next scopes ih =>
    rw [String.intercalate_cons_cons, appendEncoded_append, appendEncoded_append, bind_assoc]
    refine bind_congr fun form => ?_
    rw [appendEncoded_blank, FormBuilder.scopeTail, foldlM_cons, bind_assoc]
    exact bind_congr fun form => ih form next

theorem refreshTokenForm_eq (clientId refreshToken : String) (scopes : Option (List String)) :
    refreshTokenForm clientId refreshToken scopes =
      buildForm (refreshFields clientId refreshToken (scopes.getD [])) := by
  rw [refreshFields, buildForm, foldlM_append]
  refine bind_congr fun form => ?_
  rcases scopes with _ | _ | ⟨scope, scopes⟩
  · rfl
  · rfl
  · show FormBuilder.scopes form (scope :: scopes) =
      FormBuilder.field form "scope" (" ".intercalate (scope :: scopes)) >>= pure
    rw [bind_pure]
    exact bind_congr fun form => scopeTail_eq form scope scopes

/-! ## Reading -/

/-- The fields of a query as they are decoded, in order and with repetitions. -/
def callbackFields (query : String) : Except PrimitiveError (List (String × String)) :=
  ((utf8 query).splitOn ampersand).mapM decodeField

theorem decodeComponent_escape (value : String) :
    decodeComponent (escape (utf8 value)) = .ok value := by
  rw [decodeComponent, unescape_escape, Option.bind_some, fromUtf8_utf8]
  rfl

theorem decodeField_fieldText (field : String × String) :
    decodeField (fieldText (fieldBytes field)) = .ok field := by
  rw [decodeField, cutField_fieldText]
  show (decodeComponent (escape (utf8 field.1)) >>= fun key =>
    decodeComponent (escape (utf8 field.2)) >>= fun value => pure (key, value)) = _
  rw [decodeComponent_escape, decodeComponent_escape]
  rfl

/-- A form that was built has the fields it was built from. -/
theorem callbackFields_buildForm {fields : List (String × String)} {text : String}
    (hne : fields ≠ []) (h : buildForm fields = .ok text) : callbackFields text = .ok fields := by
  have hpa : ∀ part ∈ (fields.map fieldBytes).map fieldText, ampersand ∉ part := by
    intro part hp
    obtain ⟨field, -, rfl⟩ := mem_map.mp hp
    exact notMem_fieldText (by decide) (by decide) field
  obtain ⟨-, ht⟩ := (buildForm_extends fields).ok h
  rw [callbackFields, ht, utf8_empty, nil_append, formText,
    splitOn_intercalate ampersand hpa (by simpa using hne), mapM_ok, map_map,
    forall₂_map_left_iff, forall₂_same]
  exact fun field _ => decodeField_fieldText field

/-! ## The map of parameters -/

theorem decodeField_errors (part : List Byte) : ErrorsOf (· = correlation) (decodeField part) := by
  have hcmp (value : List Byte) :
      ErrorsOf (· = correlation) (decodeComponent value) := .orElseError rfl
  exact (hcmp _).bind fun key => (hcmp _).bind fun value => .ok _

theorem insertField_ok {parameters result : List (String × String)} {part : List Byte} :
    insertField parameters part = .ok result ↔
      ∃ field, decodeField part = .ok field ∧
        (field.1 ≠ "" ∧ field.1 ∉ parameters.map Prod.fst) ∧ result = parameters ++ [field] := by
  rw [insertField, bind_ok]
  refine exists_congr fun field => and_congr_right fun _ => ?_
  rw [bind_ok]
  constructor
  · rintro ⟨⟨⟩, hf, h⟩
    cases h
    exact ⟨of_decide_eq_true (require_ok.mp hf), rfl⟩
  · rintro ⟨hf, rfl⟩
    exact ⟨(), require_ok.mpr (decide_eq_true hf), rfl⟩

/-- No key of the fields is empty, none occurs twice, and none is there already. -/
def Fresh (parameters fields : List (String × String)) : Prop :=
  (∀ field ∈ fields, field.1 ≠ "" ∧ field.1 ∉ parameters.map Prod.fst) ∧
    (fields.map Prod.fst).Nodup

theorem fresh_cons {parameters fields : List (String × String)} {field : String × String} :
    Fresh parameters (field :: fields) ↔
      (field.1 ≠ "" ∧ field.1 ∉ parameters.map Prod.fst) ∧ Fresh (parameters ++ [field]) fields := by
  simp only [Fresh, forall_mem_cons, map_cons, nodup_cons, map_append,
    mem_append, map_nil, mem_singleton, not_or, mem_map]
  constructor
  · rintro ⟨⟨hf, hfl⟩, hnot, hno⟩
    refine ⟨hf, fun other ho => ⟨(hfl other ho).1, (hfl other ho).2, ?_⟩, hno⟩
    intro he
    exact hnot ⟨other, ho, he⟩
  · rintro ⟨hf, hfl, hno⟩
    refine ⟨⟨hf, fun other ho => ⟨(hfl other ho).1, (hfl other ho).2.1⟩⟩, ?_, hno⟩
    rintro ⟨other, ho, he⟩
    exact (hfl other ho).2.2 he

theorem foldlM_insertField_ok {parts : List (List Byte)}
    {parameters result : List (String × String)} :
    parts.foldlM insertField parameters = .ok result ↔
      ∃ fields, parts.mapM decodeField = .ok fields ∧ Fresh parameters fields ∧
        result = parameters ++ fields := by
  induction parts generalizing parameters with
  | nil =>
    rw [foldlM_nil, mapM_nil]
    constructor
    · intro h
      cases h
      exact ⟨[], rfl, ⟨nofun, nodup_nil⟩, (append_nil _).symm⟩
    · rintro ⟨fields, h, -, rfl⟩
      cases h
      rw [append_nil]
      rfl
  | cons part parts ih =>
    rw [foldlM_cons, bind_ok, mapM_cons]
    constructor
    · rintro ⟨next, hn, h⟩
      obtain ⟨field, hfi, hf, rfl⟩ := insertField_ok.mp hn
      obtain ⟨fields, hfl, hr, rfl⟩ := ih.mp h
      refine ⟨field :: fields, ?_, fresh_cons.mpr ⟨hf, hr⟩, append_assoc ..⟩
      rw [hfi, hfl]
      rfl
    · rintro ⟨all, ha, hf, rfl⟩
      obtain ⟨field, hfi, ha⟩ := bind_ok.mp ha
      obtain ⟨fields, hfl, ha⟩ := bind_ok.mp ha
      cases ha
      obtain ⟨hh, hr⟩ := fresh_cons.mp hf
      refine ⟨_, insertField_ok.mpr ⟨field, hfi, hh, rfl⟩, ih.mpr ⟨fields, hfl, hr, ?_⟩⟩
      rw [append_assoc, singleton_append]

/-- A query within the bound that is not empty and has no fragment. -/
def Plain (query : String) : Prop :=
  (utf8 query).length ≤ maxOauthTextBytes ∧ query ≠ "" ∧ 0x23 ∉ utf8 query

/-- No key is empty, and none occurs twice. -/
def DistinctKeys (fields : List (String × String)) : Prop :=
  "" ∉ fields.map Prod.fst ∧ (fields.map Prod.fst).Nodup

theorem fresh_nil {fields : List (String × String)} : Fresh [] fields ↔ DistinctKeys fields := by
  refine and_congr_left fun _ => ?_
  constructor
  · intro h hm
    obtain ⟨field, hf, hk⟩ := mem_map.mp hm
    exact (h field hf).1 hk
  · intro h field hf
    exact ⟨fun hk => h (mem_map.mpr ⟨field, hf, hk⟩), nofun⟩

/-- A form that was built has no fragment. -/
theorem plain_buildForm {fields : List (String × String)} {text : String} (hne : fields ≠ [])
    (h : buildForm fields = .ok text) : Plain text := by
  have hno : ∀ field, (0x23 : Byte) ∉ fieldText field := notMem_fieldText (by decide) (by decide)
  obtain ⟨hle, ht⟩ := (buildForm_extends fields).ok h
  obtain ⟨field, fields, rfl⟩ := exists_cons_of_ne_nil hne
  rw [utf8_empty, map_cons, formText_cons] at hle ht
  refine ⟨by rwa [ht, length_append, length_nil], ?_, ?_⟩
  · rintro rfl
    simp [fieldText] at ht
  · rw [ht, nil_append, mem_append, mem_flatMap]
    rintro (hm | ⟨next, -, hm⟩)
    · exact hno _ hm
    · exact hno _ (mem_of_ne_of_mem (by decide) hm)

theorem callbackParameters_ok {query : String} {parameters : List (String × String)} :
    callbackParameters query = .ok parameters ↔
      Plain query ∧ callbackFields query = .ok parameters ∧ DistinctKeys parameters := by
  have hl : ((utf8 query).splitOn ampersand).foldlM insertField [] = .ok parameters ↔
      callbackFields query = .ok parameters ∧ DistinctKeys parameters := by
    rw [foldlM_insertField_ok]
    constructor
    · rintro ⟨fields, hfl, hf, rfl⟩
      exact ⟨hfl, fresh_nil.mp hf⟩
    · rintro ⟨hfl, hkeys⟩
      exact ⟨parameters, hfl, fresh_nil.mpr hkeys, rfl⟩
  rw [callbackParameters, bind_unit_ok, require_ok, bind_unit_ok, require_ok, hl,
    decide_eq_true_eq, decide_eq_true_eq, Plain, and_assoc, and_assoc, and_assoc]

theorem callbackParameters_long {query : String} (hl : maxOauthTextBytes < (utf8 query).length) :
    callbackParameters query = .error .inputLimit := by
  rw [callbackParameters, decide_eq_false (Nat.not_le.mpr hl)]
  rfl

/-- A query within the bound fails to correlate or is read. -/
theorem callbackParameters_errors {query : String} (hle : (utf8 query).length ≤ maxOauthTextBytes) :
    ErrorsOf (· = correlation) (callbackParameters query) := by
  have hin (parameters : List (String × String)) (part : List Byte) :
      ErrorsOf (· = correlation) (insertField parameters part) :=
    (decodeField_errors part).bind fun field =>
      ErrorsOf.bind (ErrorsOf.require rfl) fun _ => ErrorsOf.ok (parameters ++ [field])
  have hl (parts : List (List Byte)) (parameters : List (String × String)) :
      ErrorsOf (· = correlation) (parts.foldlM insertField parameters) := by
    induction parts generalizing parameters with
    | nil => exact .ok parameters
    | cons part parts ih => exact (hin parameters part).bind ih
  rw [callbackParameters, decide_eq_true hle]
  show ErrorsOf _ (require (query ≠ "" ∧ 0x23 ∉ utf8 query) .correlation >>= fun _ =>
    ((utf8 query).splitOn ampersand).foldlM insertField [])
  exact ErrorsOf.bind (P := (· = correlation)) (ErrorsOf.require rfl) fun _ => hl _ _

/-! ## Correlation -/

theorem fold_differences {pairs : List (Byte × Byte)} {difference : Byte} :
    pairs.foldl (fun difference pair => difference ||| (pair.1 ^^^ pair.2)) difference = 0 ↔
      difference = 0 ∧ ∀ pair ∈ pairs, pair.1 = pair.2 := by
  induction pairs generalizing difference with
  | nil => exact (and_iff_left nofun).symm
  | cons pair pairs ih =>
    rw [foldl_cons, ih, forall_mem_cons, ← and_assoc, UInt8.or_eq_zero_iff, UInt8.xor_eq_zero_iff]

/-- No difference in any place is no difference. -/
theorem equalState_iff {left right : List Byte} : equalState left right = true ↔ left = right := by
  rw [equalState]
  split_ifs with hl
  · refine iff_of_false id ?_
    rintro rfl
    exact hl rfl
  · rw [decide_eq_true_eq, fold_differences, and_iff_right rfl]
    constructor
    · intro h
      rw [← forall₂_eq_eq_eq, forall₂_iff_zip]
      exact ⟨not_not.mp hl, fun hpa => h _ hpa⟩
    · rintro rfl pair hpa
      exact (forall₂_iff_zip.mp (forall₂_refl left)).2 hpa

section Lookup

variable {fields : List (String × String)} {key value : String}

theorem lookup_eq_none : fields.lookup key = none ↔ key ∉ fields.map Prod.fst := by
  simp only [lookup_eq_none_iff, bne_iff_ne, mem_map, not_exists, not_and]
  exact forall₂_congr fun field _ => ne_comm

theorem lookup_eq_some (hkeys : (fields.map Prod.fst).Nodup) :
    fields.lookup key = some value ↔ (key, value) ∈ fields := by
  rw [lookup_eq_some_iff]
  constructor
  · rintro ⟨front, back, rfl, -⟩
    exact mem_append_right _ mem_cons_self
  · intro h
    obtain ⟨front, back, rfl⟩ := append_of_mem h
    refine ⟨front, back, rfl, fun field hf => ?_⟩
    rw [map_append, nodup_append] at hkeys
    have hne := hkeys.2.2 field.1 (mem_map_of_mem hf) key mem_cons_self
    exact bne_iff_ne.mpr hne.symm

end Lookup

/-- What a callback of the flow must be, whatever it answers. -/
structure CallbackOf (flow : PendingAuthorization) (query : String)
    (fields : List (String × String)) : Prop where
  plain : Plain query
  decoded : callbackFields query = .ok fields
  keys : DistinctKeys fields
  state : ("state", flow.state) ∈ fields

/-- What is answered once the state is the one of the flow. -/
def answer (self : PendingAuthorization) (fields : List (String × String)) :
    Except PrimitiveError CorrelatedAuthorization :=
  match fields.lookup "code", fields.lookup "error" with
  | some code, none =>
    if code ≠ "" then .ok { code, verifier := self.verifier } else .error .correlation
  | none, some error =>
    if error ≠ "" then
      .error (.providerCallback (sanitizeProviderText error)
        ((fields.lookup "error_description").map sanitizeProviderText))
    else .error .correlation
  | _, _ => .error .correlation

theorem correlateCallback_of {self : PendingAuthorization} {query : String}
    {fields : List (String × String)} (h : CallbackOf self query fields) :
    self.correlateCallback query = answer self fields := by
  rw [correlateCallback, callbackParameters_ok.mpr ⟨h.plain, h.decoded, h.keys⟩]
  show (orElseError (fields.lookup "state") _ >>= _) = _
  rw [(lookup_eq_some h.keys.2).mpr h.state]
  show (require (equalState (utf8 self.state) (utf8 self.state)) _ >>= _) = _
  rw [equalState_iff.mpr rfl]
  rfl

theorem correlateCallback_cases (self : PendingAuthorization) (query : String) :
    (∃ fields, CallbackOf self query fields) ∨
      (maxOauthTextBytes < (utf8 query).length ∧
        self.correlateCallback query = .error .inputLimit) ∨
      ((utf8 query).length ≤ maxOauthTextBytes ∧
        self.correlateCallback query = .error .correlation) := by
  by_cases hl : (utf8 query).length ≤ maxOauthTextBytes
  case neg =>
    refine .inr (.inl ⟨Nat.not_le.mp hl, ?_⟩)
    rw [correlateCallback, callbackParameters_long (Nat.not_le.mp hl)]
    rfl
  cases hpa : callbackParameters query with
  | error err =>
    refine .inr (.inr ⟨hl, ?_⟩)
    rw [correlateCallback, hpa, callbackParameters_errors hl err hpa]
    rfl
  | ok fields =>
    obtain ⟨hpl, hde, hkeys⟩ := callbackParameters_ok.mp hpa
    cases hst : fields.lookup "state" with
    | none =>
      refine .inr (.inr ⟨hl, ?_⟩)
      rw [correlateCallback, hpa]
      show (orElseError (fields.lookup "state") _ >>= _) = _
      rw [hst]
      rfl
    | some received =>
      by_cases he : received = self.state
      · refine .inl ⟨fields, hpl, hde, hkeys, ?_⟩
        rw [← he]
        exact (lookup_eq_some hkeys.2).mp hst
      · refine .inr (.inr ⟨hl, ?_⟩)
        have hdi : equalState (utf8 received) (utf8 self.state) = false :=
          eq_false_of_ne_true fun h => he (utf8_inj (equalState_iff.mp h))
        rw [correlateCallback, hpa]
        show (orElseError (fields.lookup "state") _ >>= _) = _
        rw [hst]
        show (require (equalState (utf8 received) (utf8 self.state)) _ >>= _) = _
        rw [hdi]
        rfl

section

variable {self : PendingAuthorization} {fields : List (String × String)}
  (hkeys : DistinctKeys fields)
include hkeys

/-- The code is passed on with the verifier of the flow. -/
theorem answer_ok (accepted : CorrelatedAuthorization) :
    answer self fields = .ok accepted ↔
      ("code", accepted.code) ∈ fields ∧ accepted.code ≠ "" ∧ "error" ∉ fields.map Prod.fst ∧
        accepted.verifier = self.verifier := by
  rw [← lookup_eq_some hkeys.2, ← lookup_eq_none, answer]
  cases hco : fields.lookup "code" with
  | none =>
    refine iff_of_false ?_ nofun
    cases fields.lookup "error" with
    | none => nofun
    | some error =>
      dsimp only
      split_ifs <;> nofun
  | some code =>
    cases fields.lookup "error" with
    | some error => exact iff_of_false nofun fun h => nomatch h.2.2.1
    | none =>
      dsimp only
      split_ifs with he
      · constructor
        · rintro ⟨⟩
          exact ⟨rfl, he, rfl, rfl⟩
        · rintro ⟨⟨⟩, -, -, hve⟩
          rw [← hve]
      · refine iff_of_false nofun ?_
        rintro ⟨⟨⟩, hne, -⟩
        exact he hne

/-- A refusal of the provider is told in the provider's words. -/
theorem answer_refused (error : String) (description : Option String) :
    answer self fields = .error (.providerCallback error description) ↔
      ∃ said, ("error", said) ∈ fields ∧ said ≠ "" ∧ "code" ∉ fields.map Prod.fst ∧
        error = sanitizeProviderText said ∧
        description = (fields.lookup "error_description").map sanitizeProviderText := by
  simp only [← lookup_eq_some hkeys.2]
  rw [← lookup_eq_none, answer]
  cases hco : fields.lookup "code" with
  | some code =>
    refine iff_of_false ?_ (fun ⟨_, _, _, hn, _⟩ => nomatch hn)
    cases fields.lookup "error" with
    | some error => nofun
    | none =>
      dsimp only
      split_ifs <;> nofun
  | none =>
    cases fields.lookup "error" with
    | none => exact iff_of_false nofun nofun
    | some said =>
      dsimp only
      split_ifs with he
      · constructor
        · rintro ⟨⟩
          exact ⟨said, rfl, he, rfl, rfl, rfl⟩
        · rintro ⟨_, ⟨⟩, -, -, rfl, rfl⟩
          rfl
      · refine iff_of_false nofun ?_
        rintro ⟨_, ⟨⟩, hne, -⟩
        exact he hne

end

section

variable (self : PendingAuthorization)
include self

theorem answer_errors (fields : List (String × String)) :
    ErrorsOf (fun err => err = .correlation ∨ ∃ error description,
      err = .providerCallback error description) (answer self fields) := by
  intro err h
  rw [answer] at h
  split at h
  · split_ifs at h
    cases h
    exact .inl rfl
  · split_ifs at h
    · cases h
      exact .inr ⟨_, _, rfl⟩
    · cases h
      exact .inl rfl
  · cases h
    exact .inl rfl

/-! ## The two laws -/

/-- Accepted is what correlates and carries a code and no error. -/
theorem correlateCallback_ok (query : String) (accepted : CorrelatedAuthorization) :
    self.correlateCallback query = .ok accepted ↔
      ∃ fields, CallbackOf self query fields ∧ ("code", accepted.code) ∈ fields ∧
        accepted.code ≠ "" ∧ "error" ∉ fields.map Prod.fst ∧
        accepted.verifier = self.verifier := by
  constructor
  · intro h
    rcases correlateCallback_cases self query with ⟨fields, hof⟩ | ⟨-, he⟩ | ⟨-, he⟩
    · rw [correlateCallback_of hof] at h
      exact ⟨fields, hof, (answer_ok hof.keys accepted).mp h⟩
    all_goals
      rw [he] at h
      cases h
  · rintro ⟨fields, hof, h⟩
    rw [correlateCallback_of hof]
    exact (answer_ok hof.keys accepted).mpr h

/-- Refused in the provider's words is what correlates and carries an error and no code. -/
theorem correlateCallback_refused (query error : String) (description : Option String) :
    self.correlateCallback query = .error (.providerCallback error description) ↔
      ∃ fields said, CallbackOf self query fields ∧ ("error", said) ∈ fields ∧ said ≠ "" ∧
        "code" ∉ fields.map Prod.fst ∧ error = sanitizeProviderText said ∧
        description = (fields.lookup "error_description").map sanitizeProviderText := by
  constructor
  · intro h
    rcases correlateCallback_cases self query with ⟨fields, hof⟩ | ⟨-, he⟩ | ⟨-, he⟩
    · rw [correlateCallback_of hof] at h
      obtain ⟨said, hsa⟩ := (answer_refused hof.keys error description).mp h
      exact ⟨fields, said, hof, hsa⟩
    all_goals
      rw [he] at h
      cases h
  · rintro ⟨fields, said, hof, hsa⟩
    rw [correlateCallback_of hof]
    exact (answer_refused hof.keys error description).mpr ⟨said, hsa⟩

/-- Only a length over the bound is told apart from a failed correlation. -/
theorem correlateCallback_errors (query : String)
    (err : PrimitiveError) (h : self.correlateCallback query = .error err) :
    (err = .inputLimit ∧ maxOauthTextBytes < (utf8 query).length) ∨
      ((utf8 query).length ≤ maxOauthTextBytes ∧ (err = .correlation ∨
        ∃ error description, err = .providerCallback error description)) := by
  rcases correlateCallback_cases self query with ⟨fields, hof⟩ | ⟨hl, he⟩ | ⟨hl, he⟩
  · rw [correlateCallback_of hof] at h
    exact .inr ⟨hof.plain.1, answer_errors self fields err h⟩
  · rw [he] at h
    cases h
    exact .inl ⟨rfl, hl⟩
  · rw [he] at h
    cases h
    exact .inr ⟨hl, .inl rfl⟩

end

/-- Whatever is written is read back in the same order, refused only for a length over the bound;
and a callback is answered by its state and by which of a code and an error it carries. -/
theorem form_read_back_and_callback_correlated :
    (∀ fields : List (String × String),
      (∀ text, buildForm fields = .ok text → fields ≠ [] → callbackFields text = .ok fields) ∧
        ∀ err, buildForm fields = .error err ↔ err = .inputLimit ∧
          maxOauthTextBytes < (formText (fields.map fieldBytes)).length) ∧
    (∀ output value, (utf8 output).length ≤ maxOauthTextBytes →
      ((∀ text, appendEncoded output value = .ok text →
          utf8 text = utf8 output ++ escape (utf8 value)) ∧
        ∀ err, appendEncoded output value = .error err ↔ err = .inputLimit ∧
          maxOauthTextBytes < (utf8 output).length + (escape (utf8 value)).length)) ∧
    (∀ value text, appendEncoded "" value = .ok text → decodeComponent (utf8 text) = .ok value) ∧
    ∀ (self : PendingAuthorization) (query : String),
      (∀ accepted, self.correlateCallback query = .ok accepted ↔
        ∃ fields, CallbackOf self query fields ∧ ("code", accepted.code) ∈ fields ∧
          accepted.code ≠ "" ∧ "error" ∉ fields.map Prod.fst ∧
          accepted.verifier = self.verifier) ∧
      (∀ error description,
        self.correlateCallback query = .error (.providerCallback error description) ↔
          ∃ fields said, CallbackOf self query fields ∧ ("error", said) ∈ fields ∧ said ≠ "" ∧
            "code" ∉ fields.map Prod.fst ∧ error = sanitizeProviderText said ∧
            description = (fields.lookup "error_description").map sanitizeProviderText) ∧
      ∀ err, self.correlateCallback query = .error err →
        (err = .inputLimit ∧ maxOauthTextBytes < (utf8 query).length) ∨
          ((utf8 query).length ≤ maxOauthTextBytes ∧ (err = .correlation ∨
            ∃ error description, err = .providerCallback error description)) := by
  refine ⟨fun fields => ⟨fun text h hne => callbackFields_buildForm hne h, fun err => ?_⟩,
    fun output value hl => ⟨fun text h => ((appendEncoded_extends value hl).ok h).2,
      (appendEncoded_extends value hl).error_iff⟩, fun value text h => ?_,
    fun self query => ⟨correlateCallback_ok self query, correlateCallback_refused self query,
      correlateCallback_errors self query⟩⟩
  · rw [(buildForm_extends fields).error_iff, utf8_empty, length_nil, Nat.zero_add]
  · have ht := ((appendEncoded_extends value (Nat.zero_le _)).ok h).2
    rw [utf8_empty, nil_append] at ht
    rw [ht]
    exact decodeComponent_escape value

/-- No field at all is read back as one empty field, and a query with a fragment is refused
although it decodes and correlates. -/
theorem callback_reads_more_than_was_written :
    (buildForm [] = .ok "" ∧ callbackFields "" = .ok [("", "")]) ∧
      (callbackFields "state=S&code=a#b" = .ok [("state", "S"), ("code", "a#b")] ∧
        (⟨"v", "S"⟩ : PendingAuthorization).correlateCallback "state=S&code=a#b" =
          .error .correlation) ∧
      (callbackFields "state=S&error=e" = .ok [("state", "S"), ("error", "e")] ∧
        ∀ accepted, (⟨"v", "S"⟩ : PendingAuthorization).correlateCallback "state=S&error=e" ≠
          .ok accepted) := by
  refine ⟨⟨rfl, by decide +kernel⟩, ⟨by decide +kernel, by decide +kernel⟩, by decide +kernel, ?_⟩
  intro accepted h
  have heo : (⟨"v", "S"⟩ : PendingAuthorization).correlateCallback "state=S&error=e" =
      .error (.providerCallback "e" none) := by decide +kernel
  rw [heo] at h
  cases h

/-- What a provider answers with the state of the flow is accepted, and its code is exchanged with
the verifier of that flow and with nothing else; a refresh asks for its scopes in their order, each
as often as it stands there. -/
theorem token_forms_read_back (self : PendingAuthorization) (clientId : String) :
    (∀ reply query code, buildForm reply = .ok query → DistinctKeys reply →
      ("state", self.state) ∈ reply → ("code", code) ∈ reply → code ≠ "" →
      "error" ∉ reply.map Prod.fst → self.correlateCallback query = .ok ⟨code, self.verifier⟩) ∧
    (∀ query accepted redirectUri text, self.correlateCallback query = .ok accepted →
      accepted.tokenFormUri clientId redirectUri = .ok text →
      ∃ fields code, CallbackOf self query fields ∧ ("code", code) ∈ fields ∧
        callbackFields text = .ok [("grant_type", "authorization_code"), ("client_id", clientId),
          ("code", code), ("redirect_uri", redirectUri), ("code_verifier", self.verifier)]) ∧
    ∀ refreshToken scopes,
      refreshTokenForm clientId refreshToken scopes =
        buildForm (refreshFields clientId refreshToken (scopes.getD [])) ∧
      ∀ text, refreshTokenForm clientId refreshToken scopes = .ok text →
        callbackFields text = .ok (refreshFields clientId refreshToken (scopes.getD [])) := by
  refine ⟨fun reply query code hb hk hs hc hne he => ?_,
    fun query accepted redirectUri text hc ht => ?_, fun refreshToken scopes => ?_⟩
  · have hre := ne_nil_of_mem hs
    exact (correlateCallback_ok self query _).mpr ⟨reply, ⟨plain_buildForm hre hb,
      callbackFields_buildForm hre hb, hk, hs⟩, hc, hne, he, rfl⟩
  · obtain ⟨fields, hof, hco, -, -, hve⟩ := (correlateCallback_ok self query accepted).mp hc
    refine ⟨fields, accepted.code, hof, hco, ?_⟩
    rw [← hve]
    exact callbackFields_buildForm (cons_ne_nil _ _) ht
  · rw [refreshTokenForm_eq]
    exact ⟨rfl, fun text h => callbackFields_buildForm (cons_ne_nil _ _) h⟩

/-- The code of `S` goes out with the verifier of `S`, and `b` is asked for twice. -/
theorem token_forms_of_flow :
    (⟨"v", "S"⟩ : PendingAuthorization).correlateCallback "state=S&code=a" = .ok ⟨"a", "v"⟩ ∧
    callbackFields "grant_type=refresh_token&client_id=c&refresh_token=r&scope=b+a+b" =
      .ok (refreshFields "c" "r" ["b", "a", "b"]) :=
  have h := token_forms_read_back ⟨"v", "S"⟩ "c"
  ⟨h.1 [("state", "S"), ("code", "a")] _ "a" (by decide +kernel) ⟨by decide, by decide⟩
    (by decide) (by decide) (by decide) (by decide),
    (h.2.2 "r" (some ["b", "a", "b"])).2 _ (by decide +kernel)⟩

end Keld.Auth
