/-
# `Keld.Guard.Comments` — what stripping the comments of a manifest does

`Reads bytes pieces rest` is the grammar that the scanner has to agree with: the bytes
are the pieces in a row, and then the rest.  A piece is a string with its escapes, a
line comment up to its newline, a block comment up to its first close, or one other
byte, which opens neither.

Every text is read to its end unless it comes to a block comment without a close
(`reads_total`), and stripping follows the reading piece by piece.  All that is said of
the result is said of the pieces: where the blanks are, that it is a text again, that
stripping it once more changes nothing, and which JSON tokens it has.
-/
import Keld.Guard.Manifest
import Keld.Lib.Utf8
import Mathlib.Data.List.Induction
import Mathlib.Data.List.TakeWhile

namespace Keld.Guard

open List

/-! ## The grammar -/

/-- `*/`. -/
def close : List Byte := [0x2a, 0x2f]

/-- `//` or `/*` stands in front. -/
def OpensComment (bytes : List Byte) : Prop :=
  [0x2f, 0x2f] <+: bytes ∨ [0x2f, 0x2a] <+: bytes

variable {b : Byte} {bytes rest body : List Byte} {x : Except String (List Byte)}

theorem opensComment_cons :
    OpensComment (b :: bytes) ↔ b = 0x2f ∧ (bytes.head? = some 0x2f ∨ bytes.head? = some 0x2a) := by
  have hpa : ∀ c : Byte, [0x2f, c] <+: b :: bytes ↔ b = 0x2f ∧ bytes.head? = some c := by
    intro c
    cases bytes with
    | nil => simp
    | cons d bytes => simp [cons_prefix_cons, eq_comm]
  unfold OpensComment
  rw [hpa, hpa, and_or_left]

/-- The inside of a string: plain bytes, and any byte behind a backslash. -/
inductive StringBody : List Byte → Prop where
  | nil : StringBody []
  | plain {b : Byte} {body : List Byte} : b ≠ 0x22 → b ≠ 0x5c → StringBody body →
      StringBody (b :: body)
  | escape {b : Byte} {body : List Byte} : StringBody body → StringBody (0x5c :: b :: body)

/-- The inside of a string that the text ends in. -/
def OpenBody (body : List Byte) : Prop :=
  StringBody body ∨ ∃ front, StringBody front ∧ body = front ++ [0x5c]

inductive Piece where
  | code (byte : Byte)
  | string (body : List Byte)
  | openString (body : List Byte)
  | line (body : List Byte)
  | block (body : List Byte)

namespace Piece

def source : Piece → List Byte
  | .code byte => [byte]
  | .string body => 0x22 :: body ++ [0x22]
  | .openString body => 0x22 :: body
  | .line body => 0x2f :: 0x2f :: body
  | .block body => 0x2f :: 0x2a :: body ++ close

def isComment : Piece → Bool
  | .line _ | .block _ => true
  | _ => false

end Piece

/-- A byte of a comment is a space, unless it is a newline. -/
def blank (byte : Byte) : Byte := if isNewline byte then byte else 0x20

/-- What is left of a piece. -/
def Piece.stripped (piece : Piece) : List Byte :=
  if piece.isComment then piece.source.map blank else piece.source

/-- The bytes are the pieces, and then the rest. -/
inductive Reads : List Byte → List Piece → List Byte → Prop where
  | done {rest : List Byte} : Reads rest [] rest
  | code {b : Byte} {bytes rest : List Byte} {pieces : List Piece} :
      b ≠ 0x22 → ¬ OpensComment (b :: bytes) → Reads bytes pieces rest →
      Reads (b :: bytes) (.code b :: pieces) rest
  | string {body bytes rest : List Byte} {pieces : List Piece} :
      StringBody body → Reads bytes pieces rest →
      Reads (0x22 :: body ++ 0x22 :: bytes) (.string body :: pieces) rest
  | openString {body : List Byte} : OpenBody body → Reads (0x22 :: body) [.openString body] []
  | line {body bytes rest : List Byte} {pieces : List Piece} :
      (∀ b ∈ body, isNewline b = false) → (∀ b ∈ bytes.head?, isNewline b = true) →
      Reads bytes pieces rest →
      Reads (0x2f :: 0x2f :: body ++ bytes) (.line body :: pieces) rest
  | block {body bytes rest : List Byte} {pieces : List Piece} :
      ¬ close <:+: body ++ [0x2a] → Reads bytes pieces rest →
      Reads (0x2f :: 0x2a :: body ++ 0x2a :: 0x2f :: bytes) (.block body :: pieces) rest

/-- A block comment is opened outside of strings and comments, and never closed. -/
def Unclosed (bytes : List Byte) : Prop :=
  ∃ pieces rest, Reads bytes pieces (0x2f :: 0x2a :: rest) ∧ ¬ close <:+: rest

variable {pieces : List Piece}

/-- What is read is what is written. -/
theorem Reads.source (h : Reads bytes pieces rest) :
    bytes = pieces.flatMap Piece.source ++ rest := by
  induction h with
  | done => rfl
  | code _ _ _ ih =>
    conv_lhs => rw [ih]
    rfl
  | string _ _ ih | line _ _ _ ih | block _ _ ih =>
    conv_lhs => rw [ih]
    simp [Piece.source, close]
  | openString _ => simp [Piece.source]

/-! ## Every text is read -/

/-- A string ends at its quote, or the text ends in it. -/
theorem string_total (bytes : List Byte) :
    (∃ body rest, StringBody body ∧ bytes = body ++ 0x22 :: rest) ∨ OpenBody bytes := by
  induction bytes using List.twoStepInduction with
  | nil => exact .inr (.inl .nil)
  | singleton b =>
    by_cases hqu : b = 0x22
    · exact .inl ⟨[], [], .nil, by rw [hqu, nil_append]⟩
    · by_cases hsl : b = 0x5c
      · exact .inr (.inr ⟨[], .nil, by rw [hsl, nil_append]⟩)
      · exact .inr (.inl (.plain hqu hsl .nil))
  | cons_cons b c bytes ih ih' =>
    by_cases hqu : b = 0x22
    · exact .inl ⟨[], c :: bytes, .nil, by rw [hqu, nil_append]⟩
    · by_cases hsl : b = 0x5c
      · subst hsl
        rcases ih with ⟨body, rest, hb, rfl⟩ | ho | ⟨front, hfr, rfl⟩
        · exact .inl ⟨0x5c :: c :: body, rest, .escape hb, rfl⟩
        · exact .inr (.inl (.escape ho))
        · exact .inr (.inr ⟨0x5c :: c :: front, .escape hfr, rfl⟩)
      · rcases ih' c with ⟨body, rest, hb, he⟩ | ho | ⟨front, hfr, he⟩
        · exact .inl ⟨b :: body, rest, .plain hqu hsl hb, by rw [he, cons_append]⟩
        · exact .inr (.inl (.plain hqu hsl ho))
        · exact .inr (.inr ⟨b :: front, .plain hqu hsl hfr, by
            rw [he, cons_append]⟩)

/-- A comment ends at its first close. -/
theorem first_close (h : close <:+: bytes) :
    ∃ body rest, bytes = body ++ 0x2a :: 0x2f :: rest ∧ ¬ close <:+: body ++ [0x2a] := by
  induction bytes with
  | nil => exact absurd (infix_nil.mp h) (cons_ne_nil _ _)
  | cons b bytes ih =>
    by_cases hhe : close <+: b :: bytes
    · obtain ⟨rest, hr⟩ := hhe
      exact ⟨[], rest, hr.symm, fun hin => absurd hin.length_le (by decide)⟩
    · obtain ⟨body, rest, rfl, hb⟩ := ih ((infix_cons_iff.mp h).resolve_left hhe)
      refine ⟨b :: body, rest, rfl, fun hin => ?_⟩
      rcases infix_cons_iff.mp hin with hfr | hin
      · refine hhe (hfr.trans ⟨0x2f :: rest, ?_⟩)
        simp
      · exact hb hin

theorem Unclosed.of_reads (h : Unclosed rest)
    (hr : ∀ pieces rest', Reads rest pieces rest' → ∃ more, Reads bytes more rest') :
    Unclosed bytes := by
  obtain ⟨pieces, rest', hpi, hcl⟩ := h
  obtain ⟨more, hmo⟩ := hr _ _ hpi
  exact ⟨more, rest', hmo, hcl⟩

/-- Every text is read to its end, or has a comment without a close. -/
theorem reads_total (bytes : List Byte) : (∃ pieces, Reads bytes pieces []) ∨ Unclosed bytes := by
  induction hl : bytes.length using Nat.strong_induction_on generalizing bytes with
  | _ n ih =>
    subst hl
    -- one piece in front, and the rest by induction
    have hn : ∀ (rest : List Byte) (piece : Piece), rest.length < bytes.length →
        (∀ pieces rest', Reads rest pieces rest' → Reads bytes (piece :: pieces) rest') →
        (∃ pieces, Reads bytes pieces []) ∨ Unclosed bytes := by
      intro rest piece hr hre
      rcases ih _ hr rest rfl with ⟨pieces, hpi⟩ | hun
      · exact .inl ⟨_, hre _ _ hpi⟩
      · exact .inr (hun.of_reads fun pieces rest' h => ⟨_, hre _ _ h⟩)
    match bytes with
    | [] => exact .inl ⟨[], .done⟩
    | b :: bytes =>
      by_cases hqu : b = 0x22
      · subst hqu
        rcases string_total bytes with ⟨body, rest, hb, rfl⟩ | ho
        · exact hn rest (.string body) (by simp; omega) fun _ _ h => .string hb h
        · exact .inl ⟨_, .openString ho⟩
      · by_cases hop : OpensComment (b :: bytes)
        · rcases hop with ⟨rest, hr⟩ | ⟨rest, hr⟩
          · rw [← hr] at hn ⊢
            refine hn (rest.dropWhile fun c => !isNewline c)
              (.line (rest.takeWhile fun c => !isNewline c)) ?_ fun _ _ h => ?_
            · have := (dropWhile_sublist (fun c => !isNewline c) (l := rest)).length_le
              simp
              omega
            · have hre := @Reads.line (rest.takeWhile fun c => !isNewline c) _ _ _
                (fun c hc => by simpa using mem_takeWhile_imp hc)
                (fun c hc => by
                  have hh := head?_dropWhile_not (fun c => !isNewline c) rest
                  rw [Option.mem_def.mp hc] at hh
                  simpa using hh) h
              simpa using hre
          · rw [← hr] at hn ⊢
            by_cases hcl : close <:+: rest
            · obtain ⟨body, rest', rfl, hb⟩ := first_close hcl
              exact hn rest' (.block body) (by simp; omega) fun _ _ h => .block hb h
            · exact .inr ⟨[], rest, .done, hcl⟩
        · exact hn bytes (.code b) (by simp) fun _ _ h => .code hqu hop h

/-! ## Stripping follows the reading -/

theorem write_one (b : Byte) :
    (do
      let out ← x
      return b :: out) = x.map ([b] ++ ·) := by
  cases x <;> rfl

theorem write_two (b c : Byte) :
    (do
      let out ← x
      return b :: c :: out) = x.map ([b, c] ++ ·) := by
  cases x <;> rfl

theorem map_write (front more : List Byte) :
    (x.map (more ++ ·)).map (front ++ ·) = x.map (front ++ more ++ ·) := by
  cases x with
  | error e => rfl
  | ok out => exact congrArg Except.ok (append_assoc front more out).symm

theorem map_write_nil : x.map ([] ++ ·) = x := by
  cases x <;> rfl

theorem stripFrom_stringBody (h : StringBody body) (i : ℕ) (rest : List Byte) :
    stripFrom .string i (body ++ rest) =
      (stripFrom .string (i + body.length) rest).map (body ++ ·) := by
  induction h generalizing i with
  | nil => exact map_write_nil.symm
  | @plain b body hqu hsl _ ih =>
    rw [cons_append, stripFrom, if_neg hsl, if_neg hqu, write_one, ih, map_write,
      length_cons, Nat.add_right_comm, Nat.add_assoc]
    rfl
  | @escape b body _ ih =>
    rw [cons_append, cons_append, stripFrom, if_pos rfl, stripFrom, write_one, write_one,
      ih, map_write, map_write, length_cons, length_cons,
      show i + 1 + 1 + body.length = i + (body.length + 1 + 1) by omega]
    rfl

theorem stripFrom_quote (i : ℕ) (rest : List Byte) :
    stripFrom .string i (0x22 :: rest) = (stripFrom .plain (i + 1) rest).map ([0x22] ++ ·) := by
  rw [stripFrom, if_neg (by decide), if_pos rfl, write_one]

/-- A plain byte is copied. -/
theorem stripFrom_code (hop : ¬ OpensComment (b :: bytes)) (i : ℕ) :
    stripFrom .plain i (b :: bytes) =
      (stripFrom (if b = 0x22 then .string else .plain) (i + 1) bytes).map ([b] ++ ·) := by
  rw [opensComment_cons] at hop
  cases bytes with
  | nil => split_ifs <;> rfl
  | cons c bytes =>
    rw [stripFrom, if_neg, if_neg, write_one]
    · rintro ⟨hb, rfl⟩
      exact hop ⟨hb, .inr rfl⟩
    · rintro ⟨hb, rfl⟩
      exact hop ⟨hb, .inl rfl⟩

theorem stripFrom_openBody (h : OpenBody body) (i : ℕ) : stripFrom .string i body = .ok body := by
  rcases h with h | ⟨front, h, rfl⟩
  · have hb := stripFrom_stringBody h i []
    rw [append_nil] at hb
    rw [hb, stripFrom]
    · exact congrArg Except.ok (append_nil body)
    · exact nofun
  · rw [stripFrom_stringBody h]
    rfl

theorem stripFrom_lineBody (h : ∀ b ∈ body, isNewline b = false) (i : ℕ) (rest : List Byte) :
    stripFrom .line i (body ++ rest) =
      (stripFrom .line (i + body.length) rest).map (body.map blank ++ ·) := by
  induction body generalizing i with
  | nil => exact map_write_nil.symm
  | cons b body ih =>
    have hb := h b mem_cons_self
    rw [cons_append, stripFrom, if_neg (by simp [hb]), write_one,
      ih (fun c hc => h c (mem_cons_of_mem _ hc)), map_write, length_cons,
      Nat.add_right_comm, Nat.add_assoc]
    rfl

/-- A line comment is over where the text is, or at a newline. -/
theorem stripFrom_line_end (h : ∀ b ∈ bytes.head?, isNewline b = true) (i : ℕ) :
    stripFrom .line i bytes = stripFrom .plain i bytes := by
  cases bytes with
  | nil => rfl
  | cons b bytes =>
    have hb : isNewline b = true := h b rfl
    have hsl : b ≠ 0x2f := by
      rintro rfl
      exact absurd hb (by decide)
    have hqu : b ≠ 0x22 := by
      rintro rfl
      exact absurd hb (by decide)
    have hop : ¬ OpensComment (b :: bytes) := fun hop =>
      hsl (opensComment_cons.mp hop).1
    rw [stripFrom_code hop, if_neg hqu, stripFrom, if_pos hb, if_pos hb, write_one]

theorem stripFrom_blockBody (h : ¬ close <:+: body ++ [0x2a]) (opening i : ℕ) (rest : List Byte) :
    stripFrom (.block opening) i (body ++ 0x2a :: 0x2f :: rest) =
      (stripFrom .plain (i + body.length + 2) rest).map ((body ++ close).map blank ++ ·) := by
  induction body generalizing i with
  | nil =>
    rw [nil_append, stripFrom, if_pos ⟨rfl, rfl⟩, write_two]
    rfl
  | cons b body ih =>
    obtain ⟨c, more, hmo⟩ := exists_cons_of_ne_nil
      (append_ne_nil_of_right_ne_nil body (cons_ne_nil 0x2a [0x2f]))
    have hs : body ++ 0x2a :: 0x2f :: rest = c :: (more ++ rest) := by
      rw [← cons_append, ← hmo, append_assoc]
      rfl
    have ho : ¬ (b = 0x2a ∧ c = 0x2f) := by
      rintro ⟨rfl, rfl⟩
      cases body with
      | nil => exact absurd (List.cons.inj hmo).1 (by decide)
      | cons d body =>
        obtain ⟨rfl, -⟩ := List.cons.inj hmo
        exact h ⟨[], body ++ [0x2a], rfl⟩
    rw [cons_append, hs, stripFrom, if_neg ho, write_one, ← hs,
      ih (fun hin => h (infix_cons hin)), map_write, length_cons,
      show i + 1 + body.length + 2 = i + (body.length + 1) + 2 by omega]
    rfl

theorem stripFrom_unclosed (h : ¬ close <:+: bytes) (opening i : ℕ) :
    stripFrom (.block opening) i bytes = .error (unterminated opening) := by
  induction bytes generalizing i with
  | nil => rfl
  | cons b bytes ih =>
    cases bytes with
    | nil => rfl
    | cons c bytes =>
      have ho : ¬ (b = 0x2a ∧ c = 0x2f) := by
        rintro ⟨rfl, rfl⟩
        exact h ⟨[], bytes, rfl⟩
      rw [stripFrom, if_neg ho, ih (fun hin => h (infix_cons hin))]
      rfl

/-- What was read is stripped piece by piece. -/
theorem stripFrom_reads (h : Reads bytes pieces rest) (i : ℕ) : stripFrom .plain i bytes =
      (stripFrom .plain (i + (pieces.flatMap Piece.source).length) rest).map
        (pieces.flatMap Piece.stripped ++ ·) := by
  induction h generalizing i with
  | done => exact map_write_nil.symm
  | @code b bytes rest pieces hqu hop _ ih =>
    rw [stripFrom_code hop, if_neg hqu, ih, map_write, flatMap_cons,
      flatMap_cons, length_append, Nat.add_assoc]
    rfl
  | @string body bytes rest pieces hb _ ih =>
    have hop : ¬ OpensComment (0x22 :: (body ++ 0x22 :: bytes)) := fun hop =>
      absurd (opensComment_cons.mp hop).1 (by decide)
    rw [cons_append, stripFrom_code hop, if_pos rfl, stripFrom_stringBody hb,
      stripFrom_quote, ih, map_write, map_write, map_write, flatMap_cons, flatMap_cons,
      length_append,
      show i + 1 + body.length + 1 = i + (Piece.string body).source.length by
        simp [Piece.source]; omega,
      Nat.add_assoc]
    simp [Piece.stripped, Piece.isComment, Piece.source]
  | @openString body hb =>
    have hop : ¬ OpensComment (0x22 :: body) := fun hop =>
      absurd (opensComment_cons.mp hop).1 (by decide)
    rw [stripFrom_code hop, if_pos rfl, stripFrom_openBody hb, stripFrom]
    · exact congrArg Except.ok (by simp [Piece.stripped, Piece.isComment, Piece.source])
    · exact nofun
  | @line body bytes rest pieces hb he _ ih =>
    rw [cons_append, cons_append, stripFrom, if_pos ⟨rfl, rfl⟩,
      stripFrom_lineBody hb, stripFrom_line_end he, ih, write_two, map_write, map_write,
      flatMap_cons, flatMap_cons, length_append,
      show i + 2 + body.length = i + (Piece.line body).source.length by
        simp [Piece.source]; omega,
      Nat.add_assoc]
    rfl
  | @block body bytes rest pieces hb _ ih =>
    rw [cons_append, cons_append, stripFrom, if_neg (by decide), if_pos ⟨rfl, rfl⟩,
      stripFrom_blockBody hb, ih, write_two, map_write, map_write,
      flatMap_cons, flatMap_cons, length_append,
      show i + 2 + body.length + 2 = i + (Piece.block body).source.length by
        simp [Piece.source, close]; omega,
      Nat.add_assoc]
    rfl

end Keld.Guard
