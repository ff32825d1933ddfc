import OriSyntax.Proofs.Bodies

/-!
What the pieces of a tree cover.  Between two cursors every token is a separator, is
stored by a piece, or is hidden in a bad node.  A bad node hides tokens within the span
it names, if tokens stand in order, and closes the braces it opens.
-/

namespace OriSyntax

namespace Position

theorem le_refl (position : Position) : position ≤ position := by
  rw [le_def]
  omega

theorem le_trans {first second third : Position} (hfirst : first ≤ second)
    (hsecond : second ≤ third) : first ≤ third := by
  rw [le_def] at hfirst hsecond ⊢
  omega

theorem le_of_lt {first second : Position} (hlt : first < second) : first ≤ second := by
  rw [lt_def] at hlt
  rw [le_def]
  omega

theorem le_of_not_le {first second : Position} (hnot : ¬ first ≤ second) : second ≤ first := by
  rw [le_def] at hnot ⊢
  omega

theorem nowhere_le (position : Position) : nowhere ≤ position := by
  change 0 < position.line ∨ 0 = position.line ∧ 0 ≤ position.column
  omega

end Position

namespace Kind

/-- Kinds of tokens that no tree stores. -/
def isSeparator (kind : Kind) : Bool := kind ∈ [.comma, .semicolon, .elseKw]

/-- Kinds of tokens that a tree stores, the braces of bodies apart. -/
def isStored (kind : Kind) : Bool :=
  kind ∉ [.comma, .semicolon, .elseKw, .lbrace, .rbrace, .eof]

theorem not_isSeparator_of_isStored {kind : Kind} (hkind : kind.isStored) :
    kind.isSeparator = false := by
  simp [isStored, isSeparator] at hkind ⊢
  simp [hkind]

theorem ne_eof_of_isStored {kind : Kind} (hkind : kind.isStored) : kind ≠ .eof := by
  intro hcase
  rcases hcase with rfl
  exact nomatch hkind

theorem ne_eof_of_isSeparator {kind : Kind} (hkind : kind.isSeparator) : kind ≠ .eof := by
  intro hcase
  rcases hcase with rfl
  exact nomatch hkind

theorem brace_of_isStored {kind : Kind} (hkind : kind.isStored) : kind.brace = .other := by
  apply brace_eq_other
  · intro hcase
    rcases hcase with rfl
    exact nomatch hkind
  · intro hcase
    rcases hcase with rfl
    exact nomatch hkind

theorem brace_of_isSeparator {kind : Kind} (hkind : kind.isSeparator) :
    kind.brace = .other := by
  apply brace_eq_other
  · intro hcase
    rcases hcase with rfl
    exact nomatch hkind
  · intro hcase
    rcases hcase with rfl
    exact nomatch hkind

end Kind

namespace Cursor

/-- No token stands further along the text than one behind it in the list. -/
def Ordered (cursor : Cursor) : Prop :=
  cursor.tokens.Pairwise fun first second => first.position ≤ second.position

variable {start stop cursor : Cursor} {run : List Token} {token : Token}

theorem current_isSeparator (hkind : cursor.kind.isSeparator) :
    ¬ cursor.current.kind.isSeparator = false := by
  rw [Bool.not_eq_false]
  exact hkind

theorem Reads.ordered (hreads : start.Reads run stop) (hordered : start.Ordered) :
    stop.Ordered := by
  rw [Ordered, hreads.tokens]
  exact hordered

theorem current_le_of_mem_ahead (hordered : cursor.Ordered) (htoken : token ∈ cursor.ahead) :
    cursor.current.position ≤ token.position := by
  rw [Ordered, tokens, List.append_assoc] at hordered
  have hahead := (List.pairwise_append.1 (List.pairwise_append.1 hordered).2.1).1
  cases hcursor : cursor.ahead with
  | nil => simp [hcursor] at htoken
  | cons first rest =>
      rw [hcursor] at hahead htoken
      have hcurrent : cursor.current = first := by simp [current, hcursor]
      rw [hcurrent]
      rcases List.mem_cons.1 htoken with rfl | hrest
      · exact Position.le_refl _
      · exact (List.pairwise_cons.1 hahead).1 token hrest

theorem le_current_of_mem_behind (hordered : cursor.Ordered)
    (htoken : token ∈ cursor.behind) : token.position ≤ cursor.current.position := by
  rw [Ordered, tokens, List.append_assoc] at hordered
  have hbehind := (List.pairwise_append.1 hordered).2.2
  apply hbehind token (List.mem_reverse.2 htoken)
  cases hcursor : cursor.ahead with
  | nil => simp [current, hcursor]
  | cons first rest => simp [current, hcursor]

theorem le_previous_of_mem_behind (hordered : cursor.Ordered)
    (htoken : token ∈ cursor.behind) : token.position ≤ cursor.previous.position := by
  rw [Ordered, tokens, List.append_assoc] at hordered
  have hbehind := List.pairwise_reverse.1 (List.pairwise_append.1 hordered).1
  cases hcursor : cursor.behind with
  | nil => simp [hcursor] at htoken
  | cons last rest =>
      rw [hcursor] at hbehind htoken
      have hprevious : cursor.previous = last := by simp [previous, hcursor]
      rw [hprevious]
      rcases List.mem_cons.1 htoken with rfl | hrest
      · exact Position.le_refl _
      · exact (List.pairwise_cons.1 hbehind).1 token hrest

theorem previous_le_current (hordered : cursor.Ordered) :
    cursor.previous.position ≤ cursor.current.position := by
  cases hcursor : cursor.behind with
  | nil =>
      rw [previous, hcursor]
      exact Position.le_refl _
  | cons last rest =>
      apply le_current_of_mem_behind hordered
      simp [previous, hcursor]

/-- Reading leads further along the text. -/
theorem Reads.current_le (hreads : start.Reads run stop) (hordered : start.Ordered) :
    start.current.position ≤ stop.current.position := by
  cases run with
  | nil =>
      rw [hreads.eq_of_nil]
      exact Position.le_refl _
  | cons token rest =>
      have hcurrent : start.current = token := by simp [current, hreads.ahead]
      apply le_current_of_mem_behind (hreads.ordered hordered)
      simp [hreads.behind, hcurrent]

theorem current_le_next (hordered : cursor.Ordered) :
    cursor.current.position ≤ cursor.next.current.position := by
  obtain ⟨run, hrun⟩ := exists_reads_next cursor
  exact hrun.current_le hordered

end Cursor

/-- The pieces stand one behind the other, from `low` to `high`. -/
def InOrder : Position → List Piece → Position → Prop
  | low, [], high => low ≤ high
  | low, piece :: rest, high => low ≤ piece.first.position ∧
      piece.first.position ≤ piece.last.position ∧ InOrder piece.last.position rest high

namespace InOrder

variable {low middle high : Position} {pieces rest : List Piece}

theorem of_le (hlow : low ≤ middle) (hpieces : InOrder middle pieces high) :
    InOrder low pieces high := by
  cases pieces with
  | nil => exact Position.le_trans hlow hpieces
  | cons piece rest => exact ⟨Position.le_trans hlow hpieces.1, hpieces.2⟩

theorem le (hpieces : InOrder low pieces high) : low ≤ high := by
  induction pieces generalizing low with
  | nil => exact hpieces
  | cons piece rest ih =>
      exact Position.le_trans hpieces.1 (Position.le_trans hpieces.2.1 (ih hpieces.2.2))

theorem last_le {piece : Piece} (hpieces : InOrder low pieces high) (hpiece : piece ∈ pieces) :
    piece.last.position ≤ high := by
  induction pieces generalizing low with
  | nil => exact absurd hpiece List.not_mem_nil
  | cons other rest ih =>
      rcases List.mem_cons.1 hpiece with rfl | hpiece
      · exact hpieces.2.2.le
      · exact ih hpieces.2.2 hpiece

theorem split (hpieces : InOrder low (pieces ++ rest) high) :
    ∃ middle, InOrder low pieces middle ∧ InOrder middle rest high := by
  induction pieces generalizing low with
  | nil => exact ⟨low, Position.le_refl _, hpieces⟩
  | cons piece pieces ih =>
      obtain ⟨middle, hfirst, hsecond⟩ := ih hpieces.2.2
      exact ⟨middle, ⟨hpieces.1, hpieces.2.1, hfirst⟩, hsecond⟩

/-- The first token stands behind the lower end. -/
theorem le_firstTokenOf {first : Token} (hpieces : InOrder low pieces high)
    (hfirst : firstTokenOf pieces = some first) : low ≤ first.position := by
  cases pieces with
  | nil => exact nomatch hfirst
  | cons piece rest =>
      rw [firstTokenOf_cons, Option.some.injEq] at hfirst
      exact hfirst ▸ hpieces.1

/-- The last token stands before the upper end. -/
theorem lastTokenOf_le {last : Token} (hpieces : InOrder low pieces high)
    (hlast : lastTokenOf pieces = some last) : last.position ≤ high := by
  obtain ⟨piece, hpiece, rfl⟩ := Option.map_eq_some_iff.1 hlast
  exact hpieces.last_le (List.mem_of_getLast? hpiece)

theorem to_lastTokenOf {last : Token} (hpieces : InOrder low pieces high)
    (hlast : lastTokenOf pieces = some last) : InOrder low pieces last.position := by
  induction pieces generalizing low with
  | nil => exact nomatch hlast
  | cons piece rest ih =>
      refine ⟨hpieces.1, hpieces.2.1, ?_⟩
      by_cases hrest : rest = []
      · subst hrest
        rw [lastTokenOf_cons, lastTokenOf_nil, Option.none_or, Option.some.injEq] at hlast
        exact hlast ▸ Position.le_refl _
      · rw [lastTokenOf_cons_of_ne_nil _ hrest] at hlast
        exact ih hpieces.2.2 hlast

theorem le_lastTokenOf {last : Token} (hpieces : InOrder low pieces high)
    (hlast : lastTokenOf pieces = some last) : low ≤ last.position :=
  (hpieces.to_lastTokenOf hlast).le

/-- Pieces in order reach from their first to their last token. -/
theorem between {first last : Token} (hpieces : InOrder low pieces high)
    (hfirst : firstTokenOf pieces = some first) (hlast : lastTokenOf pieces = some last) :
    InOrder first.position pieces last.position := by
  cases pieces with
  | nil => exact nomatch hfirst
  | cons piece rest =>
      rw [firstTokenOf_cons, Option.some.injEq] at hfirst
      subst hfirst
      exact to_lastTokenOf ⟨Position.le_refl _, hpieces.2⟩ hlast

end InOrder

/-- The piece stores a token, in the role that its kind has. -/
def Piece.Stores : Piece → Token → Prop
  | .token stored, found => stored = found ∧ found.kind.isStored
  | .opens stored, found => stored = found ∧ found.kind = .lbrace
  | .closes stored, found => stored = found ∧ found.kind = .rbrace
  | .bad _, _ => False

namespace Piece.Stores

variable {piece : Piece} {found : Token}

theorem token?_eq (hstores : piece.Stores found) : piece.token? = some found := by
  cases piece with
  | token stored | opens stored | closes stored => exact congrArg some hstores.1
  | bad node => exact hstores.elim

theorem bad?_eq (hstores : piece.Stores found) : piece.bad? = none := by
  cases piece with
  | token stored | opens stored | closes stored => rfl
  | bad node => exact hstores.elim

theorem first_eq (hstores : piece.Stores found) : piece.first = found := by
  cases piece with
  | token stored | opens stored | closes stored => exact hstores.1
  | bad node => exact hstores.elim

theorem last_eq (hstores : piece.Stores found) : piece.last = found := by
  cases piece with
  | token stored | opens stored | closes stored => exact hstores.1
  | bad node => exact hstores.elim

theorem brace_eq (hstores : piece.Stores found) : piece.brace = found.kind.brace := by
  cases piece with
  | token stored => rw [Kind.brace_of_isStored hstores.2, Piece.brace]
  | opens stored | closes stored =>
      rw [hstores.2]
      rfl
  | bad node => exact hstores.elim

theorem not_isSeparator (hstores : piece.Stores found) :
    found.kind.isSeparator = false := by
  cases piece with
  | token stored => exact Kind.not_isSeparator_of_isStored hstores.2
  | opens stored | closes stored =>
      rw [hstores.2]
      rfl
  | bad node => exact hstores.elim

theorem ne_eof (hstores : piece.Stores found) : found.kind ≠ .eof := by
  cases piece with
  | token stored => exact Kind.ne_eof_of_isStored hstores.2
  | opens stored | closes stored =>
      rw [hstores.2]
      exact nofun
  | bad node => exact hstores.elim

theorem tokensOf_cons (hstores : piece.Stores found) (rest : List Piece) :
    tokensOf (piece :: rest) = found :: tokensOf rest :=
  List.filterMap_cons_some hstores.token?_eq

theorem badNodesOf_cons (hstores : piece.Stores found) (rest : List Piece) :
    badNodesOf (piece :: rest) = badNodesOf rest :=
  List.filterMap_cons_none hstores.bad?_eq

end Piece.Stores

/-- The span of a bad node holds what lies between two cursors, separators apart.  If
nothing lies between them, it holds the next token. -/
structure Hides (start stop : Cursor) (node : BadNode) : Prop where
  first : ∀ token ∈ start.ahead, token.kind.isSeparator = false →
    node.first.position ≤ token.position
  last : ∀ token ∈ stop.behind, token.kind.isSeparator = false →
    token.position ≤ node.last.position
  here : stop = start → start.current.position ≤ node.last.position

/-- The span of a bad node lies between two cursors. -/
structure Within (start stop : Cursor) (node : BadNode) : Prop where
  first : start.current.position ≤ node.first.position
  span : node.first.position ≤ node.last.position
  last : node.last.position ≤ stop.current.position

/-- The pieces account for the tokens between two cursors, in order.  A bad node spans
what it hides if tokens are `ordered`, and closes the braces in it if all is `calm`. -/
inductive Covers (ordered calm : Prop) : Cursor → List Piece → Cursor → Prop
  | nil (cursor : Cursor) : Covers ordered calm cursor [] cursor
  | separator {start stop : Cursor} {pieces : List Piece}
      (hkind : start.kind.isSeparator) (hrest : Covers ordered calm start.next pieces stop) :
      Covers ordered calm start pieces stop
  | stored {start stop : Cursor} {piece : Piece} {pieces : List Piece}
      (hstores : piece.Stores start.current)
      (hrest : Covers ordered calm start.next pieces stop) :
      Covers ordered calm start (piece :: pieces) stop
  | bad {start middle stop : Cursor} {hidden : List Token} {node : BadNode}
      {pieces : List Piece} (hreads : start.Reads hidden middle)
      (hhides : ordered → Hides start middle node)
      (hwithin : start.Ordered → Within start middle node)
      (hlevel : calm → middle.kind ≠ .eof → Brace.Level (braces hidden))
      (hrest : Covers ordered calm middle pieces stop) :
      Covers ordered calm start (.bad node :: pieces) stop

namespace Covers

variable {ordered calm : Prop} {start middle stop : Cursor} {pieces rest : List Piece}

theorem trans (hfirst : Covers ordered calm start pieces middle)
    (hsecond : Covers ordered calm middle rest stop) :
    Covers ordered calm start (pieces ++ rest) stop := by
  induction hfirst with
  | nil cursor => exact hsecond
  | separator hkind _ ih => exact separator hkind (ih hsecond)
  | stored hstores _ ih => exact stored hstores (ih hsecond)
  | bad hreads hhides hwithin hlevel _ ih =>
      exact bad hreads hhides hwithin hlevel (ih hsecond)

theorem mono {ordered' calm' : Prop} (hcovers : Covers ordered calm start pieces stop)
    (hordered : ordered' → ordered) (hcalm : calm' → calm) :
    Covers ordered' calm' start pieces stop := by
  induction hcovers with
  | nil cursor => exact nil cursor
  | separator hkind _ ih => exact separator hkind ih
  | stored hstores _ ih => exact stored hstores ih
  | bad hreads hhides hwithin hlevel _ ih =>
      exact bad hreads (fun h => hhides (hordered h)) hwithin (fun h => hlevel (hcalm h)) ih

/-- Pieces in a row cover one stretch after another. -/
theorem split (hcovers : Covers ordered calm start (pieces ++ rest) stop) :
    ∃ middle, Covers ordered calm start pieces middle ∧
      Covers ordered calm middle rest stop := by
  generalize hall : pieces ++ rest = all at hcovers
  induction hcovers generalizing pieces with
  | nil cursor =>
      obtain ⟨rfl, rfl⟩ := List.append_eq_nil_iff.1 hall
      exact ⟨cursor, nil cursor, nil cursor⟩
  | separator hkind _ ih =>
      obtain ⟨middle, hfirst, hsecond⟩ := ih hall
      exact ⟨middle, separator hkind hfirst, hsecond⟩
  | stored hstores hothers ih =>
      cases pieces with
      | nil =>
          rw [List.nil_append] at hall
          exact ⟨_, nil _, hall ▸ stored hstores hothers⟩
      | cons piece pieces =>
          obtain ⟨rfl, hpieces⟩ := List.cons.inj hall
          obtain ⟨middle, hfirst, hsecond⟩ := ih hpieces
          exact ⟨middle, stored hstores hfirst, hsecond⟩
  | bad hreads hhides hwithin hlevel hothers ih =>
      cases pieces with
      | nil =>
          rw [List.nil_append] at hall
          exact ⟨_, nil _, hall ▸ bad hreads hhides hwithin hlevel hothers⟩
      | cons piece pieces =>
          obtain ⟨rfl, hpieces⟩ := List.cons.inj hall
          obtain ⟨middle, hfirst, hsecond⟩ := ih hpieces
          exact ⟨middle, bad hreads hhides hwithin hlevel hfirst, hsecond⟩

/-- The first piece stores the first token behind the separators that stand before it. -/
theorem exists_stored {piece : Piece} (hcovers : Covers ordered calm start (piece :: rest) stop)
    (hpiece : piece.bad? = none) :
    ∃ middle, Covers ordered calm start [] middle ∧ piece.Stores middle.current ∧
      Covers ordered calm middle.next rest stop := by
  generalize hall : piece :: rest = all at hcovers
  induction hcovers with
  | nil cursor => exact nomatch hall
  | separator hkind _ ih =>
      obtain ⟨middle, hgap, hstored, hrest⟩ := ih hall
      exact ⟨middle, separator hkind hgap, hstored, hrest⟩
  | stored hstores hothers _ =>
      obtain ⟨rfl, rfl⟩ := List.cons.inj hall
      exact ⟨_, nil _, hstores, hothers⟩
  | bad _ _ _ _ _ _ =>
      obtain ⟨rfl, -⟩ := List.cons.inj hall
      exact nomatch hpiece

theorem exists_reads (hcovers : Covers ordered calm start pieces stop) :
    ∃ run, start.Reads run stop := by
  induction hcovers with
  | nil cursor => exact ⟨[], .refl cursor⟩
  | separator _ _ ih | stored _ _ ih =>
      obtain ⟨first, hfirst⟩ := Cursor.exists_reads_next _
      obtain ⟨run, hrun⟩ := ih
      exact ⟨first ++ run, hfirst.trans hrun⟩
  | bad hreads _ _ _ _ ih =>
      obtain ⟨run, hrun⟩ := ih
      exact ⟨_, hreads.trans hrun⟩

/-- Between the cursors the braces are those of the pieces, unless the end of the file
was reached. -/
theorem depthAfter_eq (hcovers : Covers ordered calm start pieces stop) (hcalm : calm)
    (hend : stop.kind ≠ .eof) :
    ∃ run, start.Reads run stop ∧ ∀ depth,
      Brace.depthAfter depth (braces run) = Brace.depthAfter depth (bracesOf pieces) := by
  induction hcovers with
  | nil cursor => exact ⟨[], .refl cursor, fun depth => rfl⟩
  | @separator start stop pieces hkind _ ih =>
      obtain ⟨run, hrun, hdepth⟩ := ih hend
      refine ⟨_, (Cursor.reads_next (Kind.ne_eof_of_isSeparator hkind)).trans hrun, ?_⟩
      intro depth
      have hother : start.current.kind.brace = .other := Kind.brace_of_isSeparator hkind
      rw [List.singleton_append, braces_cons, hother, Brace.depthAfter_other, hdepth]
  | stored hstores _ ih =>
      obtain ⟨run, hrun, hdepth⟩ := ih hend
      refine ⟨_, (Cursor.reads_next hstores.ne_eof).trans hrun, ?_⟩
      intro depth
      rw [List.singleton_append, braces_cons, bracesOf_cons, hstores.brace_eq]
      exact Brace.depthAfter_cons_congr _ hdepth depth
  | bad hreads _ _ hlevel _ ih =>
      obtain ⟨run, hrun, hdepth⟩ := ih hend
      refine ⟨_, hreads.trans hrun, ?_⟩
      intro depth
      have hhidden := hlevel hcalm (hrun.kind_ne_eof hend)
      rw [braces_append, Brace.depthAfter_append, hhidden.depthAfter_eq, bracesOf_cons,
        Piece.brace, Brace.depthAfter_other]
      exact hdepth depth

/-- If no piece is a bad node, the pieces store every token but the separators. -/
theorem tokensOf_eq (hcovers : Covers ordered calm start pieces stop)
    (hbad : badNodesOf pieces = []) :
    ∃ run, start.Reads run stop ∧
      run.filter (fun token => !token.kind.isSeparator) = tokensOf pieces := by
  induction hcovers with
  | nil cursor => exact ⟨[], .refl cursor, rfl⟩
  | @separator start stop pieces hkind _ ih =>
      obtain ⟨run, hrun, htokens⟩ := ih hbad
      refine ⟨_, (Cursor.reads_next (Kind.ne_eof_of_isSeparator hkind)).trans hrun, ?_⟩
      have hseparator : start.current.kind.isSeparator = true := hkind
      simpa [hseparator] using htokens
  | stored hstores _ ih =>
      rw [hstores.badNodesOf_cons] at hbad
      obtain ⟨run, hrun, htokens⟩ := ih hbad
      refine ⟨_, (Cursor.reads_next hstores.ne_eof).trans hrun, ?_⟩
      rw [hstores.tokensOf_cons]
      simpa [hstores.not_isSeparator] using htokens
  | bad _ _ _ _ _ _ => exact nomatch hbad

/-- A token is stored, or a bad node spans it, or it is a separator. -/
theorem stored_or_spanned (hcovers : Covers ordered calm start pieces stop)
    (hordered : ordered) :
    ∃ run, start.Reads run stop ∧ ∀ token ∈ run, token.kind.isSeparator = false →
      token ∈ tokensOf pieces ∨ ∃ node ∈ badNodesOf pieces,
        node.first.position ≤ token.position ∧ token.position ≤ node.last.position := by
  induction hcovers with
  | nil cursor => exact ⟨[], .refl cursor, fun _ htoken => absurd htoken List.not_mem_nil⟩
  | @separator start stop pieces hkind _ ih =>
      obtain ⟨run, hrun, htokens⟩ := ih
      refine ⟨_, (Cursor.reads_next (Kind.ne_eof_of_isSeparator hkind)).trans hrun, ?_⟩
      intro token htoken hplain
      rcases List.mem_cons.1 htoken with rfl | htoken
      · exact absurd hplain (Cursor.current_isSeparator hkind)
      · exact htokens token htoken hplain
  | stored hstores _ ih =>
      obtain ⟨run, hrun, htokens⟩ := ih
      refine ⟨_, (Cursor.reads_next hstores.ne_eof).trans hrun, ?_⟩
      intro token htoken hplain
      rw [hstores.tokensOf_cons, hstores.badNodesOf_cons]
      rcases List.mem_cons.1 htoken with rfl | htoken
      · exact .inl List.mem_cons_self
      · rcases htokens token htoken hplain with hstored | hspanned
        · exact .inl (List.mem_cons_of_mem _ hstored)
        · exact .inr hspanned
  | bad hreads hhides _ _ _ ih =>
      obtain ⟨run, hrun, htokens⟩ := ih
      refine ⟨_, hreads.trans hrun, ?_⟩
      intro token htoken hplain
      rw [badNodesOf_bad]
      rcases List.mem_append.1 htoken with hhidden | htoken
      · refine .inr ⟨_, List.mem_cons_self, ?_, ?_⟩
        · exact (hhides hordered).first token
            (hreads.ahead ▸ List.mem_append_left _ hhidden) hplain
        · exact (hhides hordered).last token
            (hreads.behind ▸ List.mem_append_left _ (List.mem_reverse.2 hhidden)) hplain
      · rcases htokens token htoken hplain with hstored | ⟨node, hnode, hspan⟩
        · exact .inl hstored
        · exact .inr ⟨node, List.mem_cons_of_mem _ hnode, hspan⟩

theorem first_le (hcovers : Covers ordered calm start pieces stop) (hordered : ordered)
    (hstart : start.Ordered) {first : Token} (hfirst : firstTokenOf pieces = some first) :
    ∀ token ∈ start.ahead, token.kind.isSeparator = false →
      first.position ≤ token.position := by
  induction hcovers with
  | nil cursor => cases hfirst
  | @separator start stop pieces hkind _ ih =>
      intro token htoken hplain
      have hnext := Cursor.reads_next (Kind.ne_eof_of_isSeparator hkind)
      rw [hnext.ahead, List.singleton_append] at htoken
      rcases List.mem_cons.1 htoken with rfl | htoken
      · exact absurd hplain (Cursor.current_isSeparator hkind)
      · exact ih (hnext.ordered hstart) hfirst token htoken hplain
  | stored hstores _ _ =>
      intro token htoken _
      rw [firstTokenOf_cons, Option.some.injEq, hstores.first_eq] at hfirst
      rw [← hfirst]
      exact Cursor.current_le_of_mem_ahead hstart htoken
  | bad _ hhides _ _ _ _ =>
      rw [firstTokenOf_cons, Option.some.injEq] at hfirst
      rw [← hfirst]
      exact (hhides hordered).first

/-- Without pieces only separators are read. -/
theorem mem_behind_of_nil (hcovers : Covers ordered calm start [] stop) {token : Token}
    (htoken : token ∈ stop.behind) (hplain : token.kind.isSeparator = false) :
    token ∈ start.behind := by
  generalize hpieces : ([] : List Piece) = pieces at hcovers
  induction hcovers with
  | nil cursor => exact htoken
  | @separator start stop pieces hkind _ ih =>
      have hbehind := ih htoken hpieces
      rw [Cursor.behind_next (Kind.ne_eof_of_isSeparator hkind)] at hbehind
      rcases List.mem_cons.1 hbehind with rfl | hbehind
      · exact absurd hplain (Cursor.current_isSeparator hkind)
      · exact hbehind
  | stored | bad => cases hpieces

theorem le_last (hcovers : Covers ordered calm start pieces stop) (hordered : ordered)
    (hstart : start.Ordered) {last : Token} (hlast : lastTokenOf pieces = some last) :
    ∀ token ∈ stop.behind, token.kind.isSeparator = false →
      token.position ≤ last.position := by
  induction hcovers with
  | nil cursor => exact nomatch hlast
  | separator hkind _ ih =>
      have hnext := Cursor.reads_next (Kind.ne_eof_of_isSeparator hkind)
      exact ih (hnext.ordered hstart) hlast
  | @stored start stop piece pieces hstores hrest ih =>
      have hnext := Cursor.reads_next hstores.ne_eof
      by_cases hnil : pieces = []
      · subst hnil
        intro token htoken hplain
        have hbehind := hrest.mem_behind_of_nil htoken hplain
        rw [lastTokenOf_cons, lastTokenOf_nil, Option.none_or, Option.some.injEq,
          hstores.last_eq] at hlast
        rw [Cursor.behind_next hstores.ne_eof, hlast] at hbehind
        rcases List.mem_cons.1 hbehind with rfl | hbehind
        · exact Position.le_refl _
        · exact hlast ▸ Cursor.le_current_of_mem_behind hstart hbehind
      · rw [lastTokenOf_cons_of_ne_nil _ hnil] at hlast
        exact ih (hnext.ordered hstart) hlast
  | @bad start middle stop hidden node pieces hreads hhides _ _ hrest ih =>
      by_cases hnil : pieces = []
      · subst hnil
        intro token htoken hplain
        have hbehind := hrest.mem_behind_of_nil htoken hplain
        rw [lastTokenOf_cons, lastTokenOf_nil, Option.none_or, Option.some.injEq] at hlast
        rw [← hlast]
        exact (hhides hordered).last token hbehind hplain
      · rw [lastTokenOf_cons_of_ne_nil _ hnil] at hlast
        exact ih (hreads.ordered hstart) hlast

/-- Nothing leads back to a token that was read. -/
theorem ne_of_next (hcovers : Covers ordered calm start.next pieces stop)
    (hkind : start.kind ≠ .eof) : stop ≠ start := by
  intro hcase
  rcases hcase with rfl
  obtain ⟨run, hrun⟩ := hcovers.exists_reads
  have hnext := (Cursor.reads_next hkind).remaining
  have hback := hrun.remaining
  simp only [List.length_singleton] at hnext
  omega

/-- Where nothing was read, the last piece spans the next token. -/
theorem here_le_last (hcovers : Covers ordered calm start pieces stop) (hordered : ordered)
    {last : Token} (hlast : lastTokenOf pieces = some last) (hstay : stop = start) :
    start.current.position ≤ last.position := by
  induction hcovers with
  | nil cursor => exact nomatch hlast
  | separator hkind hrest _ =>
      exact absurd hstay (hrest.ne_of_next (Kind.ne_eof_of_isSeparator hkind))
  | stored hstores hrest _ => exact absurd hstay (hrest.ne_of_next hstores.ne_eof)
  | @bad start middle stop hidden node pieces hreads hhides _ _ hrest ih =>
      obtain ⟨run, hrun⟩ := hrest.exists_reads
      obtain rfl : middle = start := hreads.eq_of_round (hstay ▸ hrun)
      by_cases hnil : pieces = []
      · subst hnil
        rw [lastTokenOf_cons, lastTokenOf_nil, Option.none_or, Option.some.injEq] at hlast
        rw [← hlast]
        exact (hhides hordered).here rfl
      · rw [lastTokenOf_cons_of_ne_nil _ hnil] at hlast
        exact ih hlast hstay

/-- What some pieces cover is hidden by a bad node from their first to their last
token. -/
theorem hides (hcovers : Covers ordered calm start pieces stop) (hordered : ordered)
    (hstart : start.Ordered) {first last : Token} (reason : String)
    (hfirst : firstTokenOf pieces = some first) (hlast : lastTokenOf pieces = some last) :
    Hides start stop ⟨first, last, reason⟩ where
  first := hcovers.first_le hordered hstart hfirst
  last := hcovers.le_last hordered hstart hlast
  here := hcovers.here_le_last hordered hlast

/-- Pieces that cover tokens in order stand in order themselves. -/
theorem inOrder (hcovers : Covers ordered calm start pieces stop) (hstart : start.Ordered) :
    InOrder start.current.position pieces stop.current.position := by
  induction hcovers with
  | nil cursor => exact Position.le_refl _
  | separator hkind _ ih =>
      have hnext := Cursor.reads_next (Kind.ne_eof_of_isSeparator hkind)
      exact .of_le (Cursor.current_le_next hstart) (ih (hnext.ordered hstart))
  | stored hstores _ ih =>
      have hrest := ih ((Cursor.reads_next hstores.ne_eof).ordered hstart)
      refine ⟨?_, ?_, ?_⟩
      · exact hstores.first_eq ▸ Position.le_refl _
      · rw [hstores.first_eq, hstores.last_eq]
        exact Position.le_refl _
      · exact hstores.last_eq ▸ hrest.of_le (Cursor.current_le_next hstart)
  | bad hreads _ hwithin _ _ ih =>
      have hnode := hwithin hstart
      exact ⟨hnode.first, hnode.span, .of_le hnode.last (ih (hreads.ordered hstart))⟩

/-- A bad node from the first to the last token of some pieces lies where they do. -/
theorem within (hcovers : Covers ordered calm start pieces stop) (hstart : start.Ordered)
    {first last : Token} (reason : String) (hfirst : firstTokenOf pieces = some first)
    (hlast : lastTokenOf pieces = some last) : Within start stop ⟨first, last, reason⟩ where
  first := (hcovers.inOrder hstart).le_firstTokenOf hfirst
  span := ((hcovers.inOrder hstart).between hfirst hlast).le
  last := (hcovers.inOrder hstart).lastTokenOf_le hlast

/-- Pieces that cover nothing may hide the next token. -/
theorem stepOver (hcovers : Covers ordered calm start pieces stop) (hstay : stop = start)
    (hpieces : pieces ≠ []) (hkind : start.kind ≠ .eof)
    (hlevel : calm → start.kind.brace = .other) :
    Covers ordered calm start pieces start.next := by
  induction hcovers with
  | nil cursor => exact absurd rfl hpieces
  | separator _ hrest _ | stored _ hrest _ => exact absurd hstay (hrest.ne_of_next hkind)
  | @bad start middle stop hidden node pieces hreads hhides hwithin hbraces hrest ih =>
      obtain ⟨run, hrun⟩ := hrest.exists_reads
      obtain rfl : middle = start := hreads.eq_of_round (hstay ▸ hrun)
      by_cases hnil : pieces = []
      · subst hnil
        refine bad (Cursor.reads_next hkind) (fun hordered => ?_) (fun hordered => ?_)
          (fun hcalm _ => ?_) (nil _)
        · refine ⟨(hhides hordered).first, fun token htoken hplain => ?_, fun hback => ?_⟩
          · rw [Cursor.behind_next hkind] at htoken
            rcases List.mem_cons.1 htoken with rfl | htoken
            · exact (hhides hordered).here rfl
            · exact (hhides hordered).last token htoken hplain
          · exact absurd hback (Cursor.next_ne hkind)
        · have hnode := hwithin hordered
          exact ⟨hnode.first, hnode.span,
            Position.le_trans hnode.last (Cursor.current_le_next hordered)⟩
        · have hother : middle.current.kind.brace = .other := hlevel hcalm
          rw [braces_cons, hother]
          exact .other_cons .nil
      · exact bad hreads hhides hwithin hbraces (ih hstay hnil hkind hlevel)

end Covers

end OriSyntax
