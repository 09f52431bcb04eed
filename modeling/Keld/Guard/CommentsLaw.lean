/-
# `Keld.Guard.CommentsLaw` — stripped text: a text, with the same tokens

Four facts about a stripped text, each by induction on the reading of the source:
it is UTF-8 (`stripped_isText`), it reads as itself without any comment
(`stripped_reads`), and a JSON lexer makes the same tokens of it as a lexer that
skips comments makes of the source (`lex_stripped`).

The lexer knows whitespace, the structural characters and strings; a run of other
bytes is one word, whatever a JSON reader makes of it.
-/
import Keld.Guard.Comments

namespace Keld.Guard

open List Piece

/-! ## JSON tokens -/

inductive Token where
  | structural (byte : Byte)
  | string (body : List Byte)
  | openString (body : List Byte)
  | word (bytes : List Byte)
deriving DecidableEq

def isSpace (byte : Byte) : Bool := byte = 0x20 || byte = 0x09 || byte = 0x0a || byte = 0x0d

/-- One of `{`, `}`, `[`, `]`, `:` and `,`. -/
def isStructural (byte : Byte) : Bool :=
  byte = 0x7b || byte = 0x7d || byte = 0x5b || byte = 0x5d || byte = 0x3a || byte = 0x2c

/-- The word that ends here. -/
def endWord (word : List Byte) : List Token := if word = [] then [] else [.word word]

/-- Where the lexer stands, with what it has of a word or of a string. -/
inductive Mode where
  | plain (word : List Byte)
  | string (body : List Byte)
  | escape (body : List Byte)
  | line
  | blockOpen
  | block
  | blockEnd

/-- The lexer, which skips comments where `comments` is set. -/
def lex (comments : Bool) : Mode → List Byte → List Token
  | .plain word, [] => endWord word
  | .string body, [] | .escape body, [] => [.openString body]
  | _, [] => []
  | .plain word, b :: rest =>
    if b = 0x22 then endWord word ++ lex comments (.string []) rest
    else if comments && b == 0x2f && rest.head? == some 0x2f then
      endWord word ++ lex comments .line rest
    else if comments && b == 0x2f && rest.head? == some 0x2a then
      endWord word ++ lex comments .blockOpen rest
    else if isSpace b then endWord word ++ lex comments (.plain []) rest
    else if isStructural b then
      endWord word ++ .structural b :: lex comments (.plain []) rest
    else lex comments (.plain (word ++ [b])) rest
  | .string body, b :: rest =>
    if b = 0x5c then lex comments (.escape (body ++ [b])) rest
    else if b = 0x22 then .string body :: lex comments (.plain []) rest
    else lex comments (.string (body ++ [b])) rest
  | .escape body, b :: rest => lex comments (.string (body ++ [b])) rest
  | .line, b :: rest =>
    if isNewline b then lex comments (.plain []) rest else lex comments .line rest
  | .blockOpen, _ :: rest => lex comments .block rest
  | .block, b :: rest =>
    if b = 0x2a ∧ rest.head? = some 0x2f then lex comments .blockEnd rest
    else lex comments .block rest
  | .blockEnd, _ :: rest => lex comments (.plain []) rest

/-- The tokens of a JSON text. -/
def tokens (bytes : List Byte) : List Token := lex false (.plain []) bytes

/-- The tokens of a text whose comments are whitespace. -/
def jsoncTokens (bytes : List Byte) : List Token := lex true (.plain []) bytes

-- a comment parts two words as a blank does
example : jsoncTokens [0x31, 0x2f, 0x2a, 0x2a, 0x2f, 0x32] = [.word [0x31], .word [0x32]] := by
  simp [jsoncTokens, lex, endWord, isSpace, isStructural]

variable {body bytes rest : List Byte} {comments : Bool} {b : Byte} {input : String}

theorem lex_stringBody (comments : Bool) (h : StringBody body) (done rest : List Byte) :
    lex comments (.string done) (body ++ rest) = lex comments (.string (done ++ body)) rest := by
  induction h generalizing done with
  | nil => rw [nil_append, append_nil]
  | @plain b body hqu hsl _ ih =>
    rw [cons_append, lex, if_neg hsl, if_neg hqu, ih, append_assoc]
    rfl
  | @escape b body _ ih =>
    rw [cons_append, cons_append, lex, if_pos rfl, lex, ih]
    simp

theorem lex_openBody (h : OpenBody body) : lex comments (.string []) body = [.openString body] := by
  rcases h with h | ⟨front, h, rfl⟩
  · have hb := lex_stringBody comments h [] []
    rw [append_nil, nil_append] at hb
    rw [hb, lex]
  · rw [lex_stringBody comments h, lex, if_pos rfl, lex, nil_append]

theorem lex_lineBody (h : ∀ b ∈ body, isNewline b = false) (rest : List Byte) :
    lex true .line (body ++ rest) = lex true .line rest := by
  induction body with
  | nil => rfl
  | cons b body ih =>
    rw [cons_append, lex, if_neg (by simp [h b mem_cons_self])]
    exact ih fun c hc => h c (mem_cons_of_mem _ hc)

theorem isSpace_of_isNewline (h : isNewline b = true) : isSpace b = true := by
  unfold isNewline at h
  unfold isSpace
  simp only [Bool.or_eq_true, decide_eq_true_eq] at h ⊢
  rcases h with h | h
  · exact .inl (.inr h)
  · exact .inr h

theorem isSpace_blank (b : Byte) : isSpace (blank b) = true := by
  unfold blank
  split_ifs with h
  · exact isSpace_of_isNewline h
  · rfl

theorem lex_space (h : isSpace b = true) (word rest : List Byte) :
    lex comments (.plain word) (b :: rest) = endWord word ++ lex comments (.plain []) rest := by
  have hqu : b ≠ 0x22 := by
    rintro rfl
    exact absurd h (by decide)
  have hsl : (b == 0x2f) = false := by
    refine beq_false_of_ne ?_
    rintro rfl
    exact absurd h (by decide)
  rw [lex, if_neg hqu, if_neg (by simp [hsl]), if_neg (by simp [hsl]), if_pos h]

theorem lex_line_end (h : ∀ b ∈ bytes.head?, isNewline b = true) :
    lex true .line bytes = lex true (.plain []) bytes := by
  cases bytes with
  | nil => rfl
  | cons b bytes =>
    have hb : isNewline b = true := h b rfl
    have hli : lex true .line (b :: bytes) = lex true (.plain []) bytes := by
      rw [lex, if_pos hb]
    rw [hli, lex_space (isSpace_of_isNewline hb)]
    rfl

theorem lex_blockBody (h : ¬ close <:+: body ++ [0x2a]) (rest : List Byte) :
    lex true .block (body ++ 0x2a :: 0x2f :: rest) = lex true (.plain []) rest := by
  induction body with
  | nil => rw [nil_append, lex, if_pos ⟨rfl, rfl⟩, lex]
  | cons b body ih =>
    have ho : ¬ (b = 0x2a ∧ (body ++ 0x2a :: 0x2f :: rest).head? = some 0x2f) := by
      rintro ⟨rfl, hh⟩
      cases body with
      | nil => exact absurd (Option.some.inj hh) (by decide)
      | cons c body =>
        cases hh
        exact h ⟨[], body ++ [0x2a], rfl⟩
    rw [cons_append, lex, if_neg ho]
    exact ih fun hin => h (infix_cons hin)

theorem lex_blanks {front : List Byte} (hfr : front ≠ []) (word rest : List Byte) :
    lex false (.plain word) (front.map blank ++ rest) =
      endWord word ++ lex false (.plain []) rest := by
  induction front generalizing word with
  | nil => exact absurd rfl hfr
  | cons b front ih =>
    rw [map_cons, cons_append, lex_space (isSpace_blank b)]
    cases front with
    | nil => rfl
    | cons c front => rw [ih (cons_ne_nil _ _)]; rfl

theorem lex_code {bytes' : List Byte} (hop : ¬ OpensComment (b :: bytes))
    (h : ∀ word, lex true (.plain word) bytes = lex false (.plain word) bytes') (hqu : b ≠ 0x22)
    (word : List Byte) :
    lex true (.plain word) (b :: bytes) = lex false (.plain word) (b :: bytes') := by
  rw [opensComment_cons] at hop
  have hli : ¬ (b = 0x2f ∧ bytes.head? = some 0x2f) := fun h => hop ⟨h.1, .inl h.2⟩
  have hbl : ¬ (b = 0x2f ∧ bytes.head? = some 0x2a) := fun h => hop ⟨h.1, .inr h.2⟩
  rw [lex, lex, if_neg hqu, if_neg hqu]
  simp only [Bool.true_and, Bool.false_and, Bool.and_eq_true, beq_iff_eq, Bool.false_eq_true,
    if_false, if_neg hli, if_neg hbl, h]

theorem lex_string (h : StringBody body) (word rest : List Byte) :
    lex comments (.plain word) (0x22 :: body ++ 0x22 :: rest) =
      endWord word ++ .string body :: lex comments (.plain []) rest := by
  rw [cons_append, lex, if_pos rfl, lex_stringBody _ h, lex, if_neg (by decide), if_pos rfl]
  rfl

/-- The source has the tokens that what is left of it has. -/
theorem lex_stripped {pieces : List Piece} (hre : Reads bytes pieces []) (word : List Byte) :
    lex true (.plain word) bytes = lex false (.plain word) (pieces.flatMap stripped) := by
  generalize hr : ([] : List Byte) = rest at hre
  induction hre generalizing word with
  | done =>
    subst hr
    rfl
  | code hqu hop _ ih => exact lex_code hop (fun word => ih word hr) hqu word
  | @string body bytes rest pieces hb _ ih =>
    have hst : (string body :: pieces).flatMap stripped =
        0x22 :: body ++ 0x22 :: pieces.flatMap stripped := by
      simp [stripped, isComment, source]
    rw [hst, lex_string hb, lex_string hb, ih _ hr]
  | @openString body hb =>
    have hst : [openString body].flatMap stripped = 0x22 :: body := by
      simp [stripped, isComment, source]
    rw [hst, lex, lex, if_pos rfl, if_pos rfl, lex_openBody hb, lex_openBody hb]
  | @line body bytes rest pieces hb he _ ih =>
    rw [cons_append, cons_append, lex, if_neg (by decide), if_pos (by simp),
      lex, if_neg (by decide), lex_lineBody hb, lex_line_end he, ih _ hr,
      flatMap_cons]
    exact (lex_blanks (cons_ne_nil _ _) word _).symm
  | @block body bytes rest pieces hb _ ih =>
    rw [cons_append, cons_append, lex, if_neg (by decide), if_neg (by simp),
      if_pos (by simp), lex, lex_blockBody hb, ih _ hr, flatMap_cons]
    exact (lex_blanks (cons_ne_nil _ _) word _).symm

/-! ## What is left is a text -/

theorem blank_lt : blank b < 0x80 := by
  unfold blank
  split_ifs with h
  · unfold isNewline at h
    simp only [Bool.or_eq_true, decide_eq_true_eq] at h
    rcases h with rfl | rfl
    all_goals decide
  · decide

theorem isText_blanks (bytes : List Byte) : IsText (bytes.map blank) := by
  refine isText_of_ascii fun b hb => ?_
  obtain ⟨c, -, rfl⟩ := mem_map.mp hb
  exact blank_lt

theorem isText_newline (front : List Byte) (he : ∀ b ∈ bytes.head?, isNewline b = true)
    (h : IsText (front ++ bytes)) : IsText bytes := by
  cases bytes with
  | nil => exact isText_nil
  | cons b bytes =>
    have hb : b < 0x80 := by
      have hne : isNewline b = true := he b rfl
      have hbl := blank_lt (b := b)
      rwa [blank, if_pos hne] at hbl
    exact (isText_ascii hb).append (isText_cut hb h).2

/-- The source is cut at the ASCII bytes around its comments. -/
theorem stripped_isText {pieces : List Piece} (hr : Reads bytes pieces rest) (front : List Byte)
    (h : IsText (front ++ bytes)) :
    IsText (front ++ (pieces.flatMap stripped ++ rest)) := by
  induction hr generalizing front with
  | done => exact h
  | @code b bytes rest pieces _ _ _ ih =>
    have hmo := ih (front ++ [b]) (by rwa [append_assoc])
    rwa [append_assoc] at hmo
  | @string body bytes rest pieces _ _ ih =>
    have hmo := ih (front ++ (0x22 :: body ++ [0x22])) (by simpa using h)
    simpa [stripped, isComment, source] using hmo
  | openString _ => simpa [stripped, isComment, source] using h
  | @line body bytes rest pieces _ he _ ih =>
    obtain ⟨hfr, hb⟩ := isText_cut (by decide) h
    have hby := isText_newline (0x2f :: body) he hb
    have hmo := ih _ ((hfr.append (isText_blanks (line body).source)).append hby)
    simpa [stripped, isComment] using hmo
  | @block body bytes rest pieces _ _ ih =>
    obtain ⟨hfr, hb⟩ := isText_cut (by decide) h
    have hby := (@isText_cut (0x2a :: body ++ [0x2a]) _ 0x2f (by decide) (by simpa using hb)).2
    have hmo := ih _ ((hfr.append (isText_blanks (block body).source)).append hby)
    simpa [stripped, isComment] using hmo

/-! ## What is left has no comments -/

/-- Blanks read as themselves. -/
theorem reads_blanks (front : List Byte) {pieces : List Piece} (h : Reads bytes pieces rest) :
    Reads (front.map blank ++ bytes) (front.map (fun b => .code (blank b)) ++ pieces) rest := by
  induction front with
  | nil => exact h
  | cons b front ih =>
    have hne : ∀ c : Byte, isNewline c = false → c ≠ 0x20 → blank b ≠ c := by
      intro c hc hsp he
      unfold blank at he
      split_ifs at he with hb
      · rw [he, hc] at hb
        cases hb
      · exact hsp he.symm
    exact .code (hne _ (by decide) (by decide))
      (fun hop => hne 0x2f (by decide) (by decide) (opensComment_cons.mp hop).1) ih

theorem head_stripped {pieces : List Piece} (h : Reads bytes pieces []) :
    (pieces.flatMap stripped).head? = bytes.head? ∨
      (pieces.flatMap stripped).head? = some 0x20 := by
  cases h with
  | done | code _ _ _ | string _ _ | openString _ =>
    exact .inl (by simp [stripped, isComment, source])
  | line _ _ _ | block _ _ =>
    refine .inr ?_
    rw [flatMap_cons]
    rfl

/-- What is left is read without a comment. -/
theorem stripped_reads {pieces : List Piece} (hre : Reads bytes pieces []) :
    ∃ plain, Reads (pieces.flatMap stripped) plain [] ∧
      ∀ piece ∈ plain, piece.isComment = false := by
  generalize hr : ([] : List Byte) = rest at hre
  induction hre with
  | done =>
    subst hr
    exact ⟨[], .done, by simp⟩
  | @code b bytes rest pieces hqu hop hre ih =>
    obtain ⟨plain, hpl, ha⟩ := ih hr
    subst hr
    have hco : ¬ OpensComment (b :: pieces.flatMap stripped) := by
      intro ho
      obtain ⟨hb, hh⟩ := opensComment_cons.mp ho
      rcases head_stripped hre with hs | hsp
      · rw [hs] at hh
        exact hop (opensComment_cons.mpr ⟨hb, hh⟩)
      · rw [hsp] at hh
        exact absurd hh (by decide)
    exact ⟨.code b :: plain, .code hqu hco hpl, by simpa [isComment] using ha⟩
  | @string body bytes rest pieces hbo _ ih =>
    obtain ⟨plain, hpl, ha⟩ := ih hr
    refine ⟨.string body :: plain, ?_, by simpa [isComment] using ha⟩
    simpa [stripped, isComment, source] using Reads.string hbo hpl
  | @openString body hbo =>
    refine ⟨[.openString body], ?_, by simp [isComment]⟩
    simpa [stripped, isComment, source] using Reads.openString hbo
  | @line body bytes rest pieces _ _ _ ih =>
    obtain ⟨plain, hpl, ha⟩ := ih hr
    refine ⟨_, reads_blanks (line body).source hpl, ?_⟩
    intro piece hpi
    rcases mem_append.mp hpi with hpi | hpi
    · obtain ⟨b, -, rfl⟩ := mem_map.mp hpi
      rfl
    · exact ha piece hpi
  | @block body bytes rest pieces _ _ ih =>
    obtain ⟨plain, hpl, ha⟩ := ih hr
    refine ⟨_, reads_blanks (block body).source hpl, ?_⟩
    intro piece hpi
    rcases mem_append.mp hpi with hpi | hpi
    · obtain ⟨b, -, rfl⟩ := mem_map.mp hpi
      rfl
    · exact ha piece hpi

/-! ## The law -/

/-- A text that is read to its end is stripped. -/
theorem stripJsoncComments_reads {pieces : List Piece} (h : Reads (utf8 input) pieces []) :
    ∃ out, stripJsoncComments input = .ok out ∧ utf8 out = pieces.flatMap stripped := by
  have ht : IsText (pieces.flatMap stripped) := by
    simpa using stripped_isText h [] (isText_utf8 input)
  obtain ⟨out, ho⟩ := isText_iff.mp ht
  refine ⟨out, ?_, fromUtf8_eq_some.mp ho⟩
  have hst : stripFrom .plain 0 (utf8 input) = .ok (pieces.flatMap stripped) := by
    rw [stripFrom_reads h, stripFrom]
    · exact congrArg Except.ok (append_nil _)
    · rintro _ ⟨⟩
  unfold stripJsoncComments
  rw [hst]
  exact orElseError_ok.mpr ho

theorem stripJsoncComments_unclosed (h : Unclosed (utf8 input)) :
    ∃ opening, stripJsoncComments input = .error (unterminated opening) := by
  obtain ⟨pieces, rest, hr, hcl⟩ := h
  refine ⟨0 + (pieces.flatMap source).length, ?_⟩
  unfold stripJsoncComments
  rw [stripFrom_reads hr, stripFrom, if_neg (by decide), if_pos ⟨rfl, rfl⟩, stripFrom_unclosed hcl]
  rfl

theorem stripped_source {pieces : List Piece} (h : ∀ piece ∈ pieces, piece.isComment = false) :
    pieces.flatMap stripped = pieces.flatMap source := by
  refine flatMap_congr fun piece hpi => ?_
  unfold stripped
  rw [if_neg (by simp [h piece hpi])]

theorem stripJsoncComments_plain {pieces : List Piece} (hr : Reads (utf8 input) pieces [])
    (h : ∀ piece ∈ pieces, piece.isComment = false) :
    stripJsoncComments input = .ok input := by
  obtain ⟨out, ho, hby⟩ := stripJsoncComments_reads hr
  have hsrc : utf8 input = pieces.flatMap source := by
    simpa using hr.source
  rw [ho, utf8_inj (hby.trans ((stripped_source h).trans hsrc.symm))]

theorem length_stripped (pieces : List Piece) :
    (pieces.flatMap stripped).length = (pieces.flatMap source).length := by
  induction pieces with
  | nil => rfl
  | cons piece pieces ih =>
    have hpi : piece.stripped.length = piece.source.length := by
      unfold stripped
      split_ifs
      · exact length_map _
      · rfl
    rw [flatMap_cons, flatMap_cons, length_append, length_append, hpi, ih]

/-- Stripping fails exactly on a comment that is never closed, and with its own message.  Else the
text has a reading, and of every reading the comments are blanked and nothing else is changed; what
is left has the same tokens, and is left as it is when it is stripped again. -/
theorem stripJsoncComments_law (input : String) :
    ((∃ fault, stripJsoncComments input = .error fault) ↔ Unclosed (utf8 input)) ∧
    (∀ fault, stripJsoncComments input = .error fault → ∃ opening, fault = unterminated opening) ∧
    (∀ out, stripJsoncComments input = .ok out →
      (∃ pieces, Reads (utf8 input) pieces []) ∧
      (∀ pieces, Reads (utf8 input) pieces [] →
        utf8 input = pieces.flatMap source ∧ utf8 out = pieces.flatMap stripped) ∧
      (utf8 out).length = (utf8 input).length ∧
      tokens (utf8 out) = jsoncTokens (utf8 input) ∧
      stripJsoncComments out = .ok out) ∧
    (∀ pieces, Reads (utf8 input) pieces [] → (∀ piece ∈ pieces, piece.isComment = false) →
      stripJsoncComments input = .ok input) := by
  have hre : ∀ {out pieces}, stripJsoncComments input = .ok out →
      Reads (utf8 input) pieces [] → utf8 input = pieces.flatMap source ∧
        utf8 out = pieces.flatMap stripped := by
    intro out pieces ho hr
    obtain ⟨out', ho', hby⟩ := stripJsoncComments_reads hr
    cases ho.symm.trans ho'
    exact ⟨by simpa using hr.source, hby⟩
  rcases reads_total (utf8 input) with ⟨pieces, hr⟩ | hun
  · obtain ⟨out, ho, hby⟩ := stripJsoncComments_reads hr
    refine ⟨⟨?_, fun hun => ?_⟩, fun fault hfa => ?_, fun out' ho' => ?_,
      fun _ => stripJsoncComments_plain⟩
    · rintro ⟨fault, hfa⟩
      cases ho.symm.trans hfa
    · obtain ⟨opening, heo⟩ := stripJsoncComments_unclosed hun
      exact ⟨_, heo⟩
    · cases ho.symm.trans hfa
    · cases ho.symm.trans ho'
      obtain ⟨plain, hpl, ha⟩ := stripped_reads hr
      refine ⟨⟨pieces, hr⟩, fun _ h => hre ho h, ?_, ?_, ?_⟩
      · rw [hby, (hre ho hr).1, length_stripped]
      · rw [hby]
        exact (lex_stripped hr []).symm
      · rw [← hby] at hpl
        exact stripJsoncComments_plain hpl ha
  · obtain ⟨opening, heo⟩ := stripJsoncComments_unclosed hun
    refine ⟨⟨fun _ => hun, fun _ => ⟨_, heo⟩⟩, fun fault hfa => ?_, fun out ho => ?_,
      fun _ => stripJsoncComments_plain⟩
    · cases heo.symm.trans hfa
      exact ⟨opening, rfl⟩
    · cases heo.symm.trans ho

end Keld.Guard
