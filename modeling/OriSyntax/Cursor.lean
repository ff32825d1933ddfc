import OriSyntax.Token

/-!
A reader's place in a list of tokens.  Comments are left out and the list ends
with one end-of-file token, at which the reader stays once it is reached.
-/

namespace OriSyntax

/-- Tokens of which a grammar is made: neither comments nor the end of the file. -/
def Token.isPlain (token : Token) : Prop :=
  token.kind ≠ .comment ∧ token.kind ≠ .eof

/-- A place between tokens that were read and tokens still to be read. -/
structure Cursor where
  /-- Tokens already read, latest first. -/
  behind : List Token
  /-- Tokens to be read before the end of the file. -/
  ahead : List Token
  /-- The end-of-file token. -/
  eof : Token
  /-- Number of tokens already read. -/
  position : Nat
  /-- Number of tokens to be read before the end of the file. -/
  remaining : Nat
  position_eq : position = behind.length
  remaining_eq : remaining = ahead.length
  behind_plain : ∀ token ∈ behind, token.isPlain
  ahead_plain : ∀ token ∈ ahead, token.isPlain
  eof_kind : eof.kind = .eof

namespace Cursor

/-- A cursor is told by the tokens behind it and ahead of it. -/
theorem eq_of_lists {first second : Cursor} (hbehind : first.behind = second.behind)
    (hahead : first.ahead = second.ahead) (heof : first.eof = second.eof) :
    first = second := by
  have hposition : first.position = second.position := by
    rw [first.position_eq, second.position_eq, hbehind]
  have hremaining : first.remaining = second.remaining := by
    rw [first.remaining_eq, second.remaining_eq, hahead]
  cases first
  cases second
  simp_all

instance : DecidableEq Cursor := fun first second =>
  decidable_of_iff (first.behind = second.behind ∧ first.ahead = second.ahead ∧
    first.eof = second.eof)
    ⟨fun hsame => eq_of_lists hsame.1 hsame.2.1 hsame.2.2, fun hsame => by simp [hsame]⟩

/-- The end-of-file token of a list that has none: it stands just past the last
token, and nowhere if there is no token. -/
def closingToken (tokens : List Token) : Token :=
  let place := (tokens.getLast?.map Token.endPosition).getD .nowhere
  ⟨.eof, "", place.line, place.column⟩

/-- The cursor at the head of a list of tokens.  Comments are dropped, and so is
everything from the first end-of-file token on, which closes the list. -/
def ofTokens (tokens : List Token) : Cursor :=
  let code := tokens.filter (·.kind ≠ .comment)
  let ahead := code.takeWhile (·.kind ≠ .eof)
  let closing := code.find? (·.kind = .eof)
  { behind := []
    ahead := ahead
    eof := closing.getD (closingToken code)
    position := 0
    remaining := ahead.length
    position_eq := rfl
    remaining_eq := rfl
    behind_plain := fun _ htoken => nomatch htoken
    ahead_plain := by
      intro token htoken
      have hcode : token ∈ code := (List.takeWhile_sublist _).subset htoken
      have hkind := List.all_eq_true.1 List.all_takeWhile token htoken
      exact ⟨by simpa [code] using (List.mem_filter.1 hcode).2, by simpa using hkind⟩
    eof_kind := by
      cases hclosing : closing with
      | none => rfl
      | some found => simpa using List.find?_some hclosing }

/-- All tokens, the one that closes the list included. -/
def tokens (cursor : Cursor) : List Token :=
  cursor.behind.reverse ++ cursor.ahead ++ [cursor.eof]

/-- The token to be read next. -/
def current (cursor : Cursor) : Token := cursor.ahead.head?.getD cursor.eof

/-- The kind of the token to be read next. -/
def kind (cursor : Cursor) : Kind := cursor.current.kind

/-- The kind of the token `offset` places past the next one; past the end it is
that of the end-of-file token. -/
def kindAt (cursor : Cursor) (offset : Nat) : Kind :=
  (cursor.ahead[offset]?.map Token.kind).getD .eof

/-- The token read last, or the first one if none was read. -/
def previous (cursor : Cursor) : Token := cursor.behind.head?.getD cursor.current

/-- Whether nothing is left but the end-of-file token. -/
def atEof (cursor : Cursor) : Bool := cursor.kind = .eof

/-- The cursor past the next token; at the end of the file it stays. -/
def next (cursor : Cursor) : Cursor :=
  match hahead : cursor.ahead with
  | [] => cursor
  | token :: rest =>
      { behind := token :: cursor.behind
        ahead := rest
        eof := cursor.eof
        position := cursor.position + 1
        remaining := cursor.remaining - 1
        position_eq := by simp [cursor.position_eq]
        remaining_eq := by simp [cursor.remaining_eq, hahead]
        behind_plain := by
          intro other hother
          rcases List.mem_cons.1 hother with rfl | hother
          · exact cursor.ahead_plain _ (by simp [hahead])
          · exact cursor.behind_plain other hother
        ahead_plain := fun other hother =>
          cursor.ahead_plain other (by simp [hahead, hother])
        eof_kind := cursor.eof_kind }

/-- Whether the next token stands on a later line than the one before it. -/
def opensLine (cursor : Cursor) : Bool :=
  cursor.behind.head?.any (·.line < cursor.current.line)

/-- Whether `kind` occurs before the next opening brace. -/
def headerContains (cursor : Cursor) (kind : Kind) : Bool :=
  (cursor.ahead.takeWhile (·.kind ≠ .lbrace)).any (·.kind = kind)

theorem kind_of_ahead_eq_nil {cursor : Cursor} (hahead : cursor.ahead = []) :
    cursor.kind = .eof := by
  simp [kind, current, hahead, cursor.eof_kind]

theorem kind_of_ahead_eq_cons {cursor : Cursor} {token : Token} {rest : List Token}
    (hahead : cursor.ahead = token :: rest) : cursor.kind = token.kind := by
  simp [kind, current, hahead]

theorem kind_eq_eof_iff {cursor : Cursor} :
    cursor.kind = .eof ↔ cursor.ahead = [] := by
  constructor
  · intro hkind
    cases hahead : cursor.ahead with
    | nil => rfl
    | cons token rest =>
        have htoken := cursor.ahead_plain token (by simp [hahead])
        exact absurd (kind_of_ahead_eq_cons hahead ▸ hkind) htoken.2
  · exact kind_of_ahead_eq_nil

theorem next_of_ahead_eq_nil {cursor : Cursor} (hahead : cursor.ahead = []) :
    cursor.next = cursor := by
  unfold next
  split
  · rfl
  · simp_all

theorem ahead_next (cursor : Cursor) : cursor.next.ahead = cursor.ahead.tail := by
  unfold next
  split <;> simp_all

end Cursor

end OriSyntax
