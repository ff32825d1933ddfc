import OriSyntax.Proofs.Boundaries
import OriSyntax.Proofs.Lossless
import OriSyntax.Proofs.StmtShaping

/-!
Where tokens come from.  The parser makes up no token: a run corresponds to itself, token by
token, and only what it reads corresponds to anything.  So whatever it stores or reports was
among its tokens.
-/

namespace OriSyntax

variable {like : Likeness}

/-- Pieces of one sort whose tokens correspond. -/
inductive Piece.Alike (like : Likeness) : Piece → Piece → Prop where
  | token {stored stored' : Token} (hstored : like.token stored stored') :
      Piece.Alike like (.token stored) (.token stored')
  | opens {stored stored' : Token} (hstored : like.token stored stored') :
      Piece.Alike like (.opens stored) (.opens stored')
  | closes {stored stored' : Token} (hstored : like.token stored stored') :
      Piece.Alike like (.closes stored) (.closes stored')
  | bad {node node' : BadNode} (hnode : like.bad node node') :
      Piece.Alike like (.bad node) (.bad node')

/-- Pieces that are alike one by one. -/
abbrev Piece.AllAlike (like : Likeness) : List Piece → List Piece → Prop :=
  List.Forall₂ (Piece.Alike like)

open Piece (AllAlike)

theorem alike_single {stored stored' : Token} (hstored : like.token stored stored') :
    AllAlike like [.token stored] [.token stored'] := .cons (.token hstored) .nil

section Parts

variable {α : Type} {item : α → α → Prop} {piecesOf : α → List Piece}

theorem alike_flatMap {items items' : List α} (hitems : List.Forall₂ item items items')
    (hpieces : ∀ found found', item found found' →
      AllAlike like (piecesOf found) (piecesOf found')) :
    AllAlike like (items.flatMap piecesOf) (items'.flatMap piecesOf) :=
  List.rel_flatMap hitems hpieces

theorem alike_piecesOf? {found found' : Option α} (hfound : Option.Rel item found found')
    (hpieces : ∀ found found', item found found' →
      AllAlike like (piecesOf found) (piecesOf found')) :
    AllAlike like (piecesOf? piecesOf found) (piecesOf? piecesOf found') := by
  cases hfound with
  | none => exact .nil
  | some hvalue => exact hpieces _ _ hvalue

theorem Enclosed.Alike.listPieces {body body' : Enclosed α}
    (halike : Enclosed.Alike like item body body')
    (hpieces : ∀ found found', item found found' →
      AllAlike like (piecesOf found) (piecesOf found')) :
    AllAlike like (body.listPieces piecesOf) (body'.listPieces piecesOf) := by
  cases halike with
  | intro hopening hitems hclosing =>
      exact List.rel_append (.cons (.token hopening) (alike_flatMap hitems hpieces))
        (alike_single hclosing)

theorem Enclosed.Alike.bodyPieces {body body' : Enclosed α}
    (halike : Enclosed.Alike like item body body')
    (hpieces : ∀ found found', item found found' →
      AllAlike like (piecesOf found) (piecesOf found')) :
    AllAlike like (body.bodyPieces piecesOf) (body'.bodyPieces piecesOf) := by
  cases halike with
  | intro hopening hitems hclosing =>
      exact List.rel_append (.cons (.opens hopening) (alike_flatMap hitems hpieces))
        (.cons (.closes hclosing) .nil)

theorem TypeDecl.Alike.pieces {decl decl' : TypeDecl α}
    (halike : TypeDecl.Alike like item decl decl')
    (hpieces : ∀ found found', item found found' →
      AllAlike like (piecesOf found) (piecesOf found')) :
    AllAlike like (decl.pieces piecesOf) (decl'.pieces piecesOf) := by
  cases halike with
  | intro htypeKeyword hname hkeyword hbody =>
      exact .cons (.token htypeKeyword) (.cons (.token hname) (.cons (.token hkeyword)
        (hbody.bodyPieces hpieces)))

end Parts

theorem TypeExpr.Alike.pieces {type type' : TypeExpr} (halike : TypeExpr.Alike like type type') :
    AllAlike like type.pieces type'.pieces := by
  cases halike with
  | named hname => exact alike_single hname
  | bad hnode => exact .cons (.bad hnode) .nil

mutual

theorem Expr.Alike.pieces {expr expr' : Expr} (halike : Expr.Alike like expr expr') :
    AllAlike like expr.pieces expr'.pieces := by
  match expr with
  | .ident _ =>
      cases halike with
      | ident hname => exact alike_single hname
  | .literal .. =>
      cases halike with
      | literal hvalue => exact alike_single hvalue
  | .paren .. =>
      cases halike with
      | paren hopening hinner hclosing =>
          simp only [Expr.pieces]
          exact List.rel_append (.cons (.token hopening) (Expr.Alike.pieces hinner))
            (alike_single hclosing)
  | .unary .. =>
      cases halike with
      | unary hop hoperand =>
          simp only [Expr.pieces]
          exact .cons (.token hop) (Expr.Alike.pieces hoperand)
  | .binary .. =>
      cases halike with
      | binary hleft hop hright =>
          simp only [Expr.pieces]
          exact List.rel_append (Expr.Alike.pieces hleft)
            (.cons (.token hop) (Expr.Alike.pieces hright))
  | .selector .. =>
      cases halike with
      | selector hbase hdot hname =>
          simp only [Expr.pieces]
          exact List.rel_append (Expr.Alike.pieces hbase) (.cons (.token hdot) (alike_single hname))
  | .index .. =>
      cases halike with
      | index hbase hopening hinner hclosing =>
          simp only [Expr.pieces]
          exact List.rel_append (List.rel_append (Expr.Alike.pieces hbase)
            (.cons (.token hopening) (Expr.Alike.pieces hinner))) (alike_single hclosing)
  | .call _ ⟨_, _, _⟩ =>
      cases halike with
      | call hcallee hargs =>
          cases hargs with
          | intro hopening hitems hclosing =>
              simp only [Expr.pieces, Expr.piecesOfAll_eq]
              exact List.rel_append (List.rel_append (Expr.Alike.pieces hcallee)
                (.cons (.token hopening) (Expr.Alike.piecesAll hitems))) (alike_single hclosing)
  | .bad _ =>
      cases halike with
      | bad hnode => exact .cons (.bad hnode) .nil

theorem Expr.Alike.piecesAll {exprs exprs' : List Expr}
    (halike : List.Forall₂ (Expr.Alike like) exprs exprs') :
    AllAlike like (exprs.flatMap Expr.pieces) (exprs'.flatMap Expr.pieces) := by
  match exprs with
  | [] =>
      cases halike
      exact .nil
  | expr :: rest =>
      cases halike with
      | cons hexpr hrest =>
          exact List.rel_append (Expr.Alike.pieces hexpr) (Expr.Alike.piecesAll hrest)

end

theorem ValueDecl.Alike.pieces {decl decl' : ValueDecl}
    (halike : ValueDecl.Alike like decl decl') : AllAlike like decl.pieces decl'.pieces := by
  cases halike with
  | intro hkeyword hname htype heq hvalue =>
      exact .cons (.token hkeyword) (.cons (.token hname) (List.rel_append
        (alike_piecesOf? htype fun _ _ => TypeExpr.Alike.pieces)
        (.cons (.token heq) hvalue.pieces)))

theorem Param.Alike.pieces {param param' : Param} (halike : Param.Alike like param param') :
    AllAlike like param.pieces param'.pieces := by
  cases halike with
  | intro hname htype =>
      exact List.rel_append (alike_piecesOf? hname fun _ _ => alike_single) htype.pieces

theorem ParamList.Alike.pieces {params params' : ParamList}
    (halike : ParamList.Alike like params params') :
    AllAlike like (params.listPieces Param.pieces) (params'.listPieces Param.pieces) :=
  Enclosed.Alike.listPieces halike fun _ _ => Param.Alike.pieces

theorem Results.Alike.pieces {results results' : Results}
    (halike : Results.Alike like results results') :
    AllAlike like results.pieces results'.pieces := by
  cases halike with
  | single htype => exact htype.pieces
  | list hparams => exact ParamList.Alike.pieces hparams

theorem QualifiedName.Alike.pieces {name name' : QualifiedName}
    (halike : QualifiedName.Alike like name name') : AllAlike like name.pieces name'.pieces := by
  cases halike with
  | intro hqualifier hname =>
      refine List.rel_append (alike_piecesOf? hqualifier fun _ _ halike => ?_)
        (alike_single hname)
      cases halike with
      | intro hpackage hdot => exact .cons (.token hpackage) (alike_single hdot)

theorem Default.Alike.pieces {default default' : Default}
    (halike : Default.Alike like default default') :
    AllAlike like default.pieces default'.pieces := by
  cases halike with
  | intro heq hvalue => exact .cons (.token heq) hvalue.pieces

theorem FieldDecl.Alike.pieces {field field' : FieldDecl}
    (halike : FieldDecl.Alike like field field') : AllAlike like field.pieces field'.pieces := by
  cases halike with
  | intro hname htype hdefault =>
      exact List.rel_append (.cons (.token hname) htype.pieces)
        (alike_piecesOf? hdefault fun _ _ => Default.Alike.pieces)

theorem InterfaceMember.Alike.pieces {member member' : InterfaceMember}
    (halike : InterfaceMember.Alike like member member') :
    AllAlike like member.pieces member'.pieces := by
  cases halike with
  | method hname hparams hresults =>
      exact List.rel_append (.cons (.token hname) (ParamList.Alike.pieces hparams))
        (alike_piecesOf? hresults fun _ _ => Results.Alike.pieces)
  | embed hname => exact hname.pieces

theorem SumVariant.Alike.pieces {variant variant' : SumVariant}
    (halike : SumVariant.Alike like variant variant') :
    AllAlike like variant.pieces variant'.pieces := by
  cases halike with
  | intro hname hparams =>
      exact .cons (.token hname) (alike_piecesOf? hparams fun _ _ => ParamList.Alike.pieces)

theorem ImplementsDecl.Alike.pieces {decl decl' : ImplementsDecl}
    (halike : ImplementsDecl.Alike like decl decl') : AllAlike like decl.pieces decl'.pieces := by
  cases halike with
  | intro htypeName hkeyword hinterface =>
      exact .cons (.token htypeName) (.cons (.token hkeyword) hinterface.pieces)

mutual

theorem Stmt.Alike.pieces {stmt stmt' : Stmt} (halike : Stmt.Alike like stmt stmt') :
    AllAlike like stmt.pieces stmt'.pieces := by
  match stmt with
  | .block _ =>
      cases halike with
      | block hbody =>
          simp only [Stmt.pieces]
          exact Stmt.Alike.piecesBlock hbody
  | .const _ =>
      cases halike with
      | const hdecl => exact hdecl.pieces
  | .var _ =>
      cases halike with
      | var hdecl => exact hdecl.pieces
  | .assign .. =>
      cases halike with
      | assign hleft hop hright =>
          exact List.rel_append hleft.pieces (.cons (.token hop) hright.pieces)
  | .incDec .. =>
      cases halike with
      | incDec htarget hop => exact List.rel_append htarget.pieces (alike_single hop)
  | .effect _ =>
      cases halike with
      | effect hvalue => exact hvalue.pieces
  | .returns .. =>
      cases halike with
      | returns hkeyword hvalues => exact .cons (.token hkeyword) (Expr.Alike.piecesAll hvalues)
  | .ifElse .. =>
      cases halike with
      | ifElse hkeyword hcondition hbody hotherwise =>
          simp only [Stmt.pieces]
          exact List.rel_append (List.rel_append (.cons (.token hkeyword) hcondition.pieces)
            (Stmt.Alike.piecesBlock hbody)) (Stmt.Alike.piecesOption hotherwise)
  | .forLoop .. =>
      cases halike with
      | forLoop hkeyword hfirst hcondition hafter hbody =>
          simp only [Stmt.pieces]
          refine List.rel_append (List.rel_append (List.rel_append (.cons (.token hkeyword)
            (Stmt.Alike.piecesOption hfirst)) ?_) (Stmt.Alike.piecesOption hafter))
            (Stmt.Alike.piecesBlock hbody)
          exact alike_piecesOf? hcondition fun _ _ => Expr.Alike.pieces
  | .rangeLoop .. =>
      cases halike with
      | rangeLoop hkeyword hkey hvalue hop hrangeKeyword hsubject hbody =>
          simp only [Stmt.pieces]
          refine List.rel_append (List.rel_append (List.rel_append (List.rel_append
            (.cons (.token hkeyword) ?_) ?_) ?_) (.cons (.token hrangeKeyword) hsubject.pieces))
            (Stmt.Alike.piecesBlock hbody)
          · exact alike_piecesOf? hkey fun _ _ => Expr.Alike.pieces
          · exact alike_piecesOf? hvalue fun _ _ => Expr.Alike.pieces
          · exact alike_piecesOf? hop fun _ _ => alike_single
  | .switch .. =>
      cases halike with
      | switch hkeyword hfirst htag hcases =>
          simp only [Stmt.pieces]
          exact List.rel_append (List.rel_append (.cons (.token hkeyword)
            (Stmt.Alike.piecesOption hfirst)) (alike_piecesOf? htag fun _ _ => Expr.Alike.pieces))
            (Stmt.Alike.piecesBlock hcases)
  | .clause .. =>
      cases halike with
      | clause hkeyword hvalues hcolon hbody =>
          simp only [Stmt.pieces, Stmt.piecesOfAll_eq]
          exact List.rel_append (.cons (.token hkeyword) (Expr.Alike.piecesAll hvalues))
            (.cons (.token hcolon) (Stmt.Alike.piecesAll hbody))
  | .breakLoop _ | .continueLoop _ | .fallThrough _ =>
      cases halike with
      | _ hkeyword => exact alike_single hkeyword
  | .decl _ =>
      cases halike with
      | decl hdecl =>
          simp only [Stmt.pieces]
          exact Decl.Alike.pieces hdecl
  | .bad _ =>
      cases halike with
      | bad hnode => exact .cons (.bad hnode) .nil

theorem Stmt.Alike.piecesAll {stmts stmts' : List Stmt}
    (halike : List.Forall₂ (Stmt.Alike like) stmts stmts') :
    AllAlike like (stmts.flatMap Stmt.pieces) (stmts'.flatMap Stmt.pieces) := by
  match stmts with
  | [] =>
      cases halike
      exact .nil
  | stmt :: rest =>
      cases halike with
      | cons hstmt hrest =>
          exact List.rel_append (Stmt.Alike.pieces hstmt) (Stmt.Alike.piecesAll hrest)

theorem Stmt.Alike.piecesOption {found found' : Option Stmt}
    (halike : Option.Rel (Stmt.Alike like) found found') :
    AllAlike like (Stmt.pieces? found) (Stmt.pieces? found') := by
  match found with
  | none =>
      cases halike
      exact .nil
  | some _ =>
      cases halike with
      | some hstmt =>
          simp only [Stmt.pieces?]
          exact Stmt.Alike.pieces hstmt

theorem Stmt.Alike.piecesBlock {body body' : Block}
    (halike : Enclosed.Alike like (Stmt.Alike like) body body') :
    AllAlike like (Stmt.piecesOfBlock body) (Stmt.piecesOfBlock body') := by
  match body with
  | ⟨_, _, _⟩ =>
      cases halike with
      | intro hopening hstmts hclosing =>
          simp only [Stmt.piecesOfBlock, Stmt.piecesOfAll_eq]
          exact List.rel_append (.cons (.opens hopening) (Stmt.Alike.piecesAll hstmts))
            (.cons (.closes hclosing) .nil)

theorem Decl.Alike.pieces {decl decl' : Decl} (halike : Decl.Alike like decl decl') :
    AllAlike like decl.pieces decl'.pieces := by
  match decl with
  | .func ⟨_, _, _, _, _⟩ =>
      cases halike with
      | func hdecl =>
          cases hdecl with
          | intro hkeyword hname hparams hresults hbody =>
              simp only [Decl.pieces, FuncDecl.pieces]
              exact List.rel_append (List.rel_append (.cons (.token hkeyword) (.cons (.token hname)
                (ParamList.Alike.pieces hparams)))
                (alike_piecesOf? hresults fun _ _ => Results.Alike.pieces))
                (Stmt.Alike.piecesBlock hbody)
  | .struct _ =>
      cases halike with
      | struct hdecl => exact hdecl.pieces fun _ _ => FieldDecl.Alike.pieces
  | .interface _ =>
      cases halike with
      | interface hdecl => exact hdecl.pieces fun _ _ => InterfaceMember.Alike.pieces
  | .enum _ =>
      cases halike with
      | enum hdecl => exact hdecl.pieces fun _ _ => alike_single
  | .sum _ =>
      cases halike with
      | sum hdecl => exact hdecl.pieces fun _ _ => SumVariant.Alike.pieces
  | .implements _ =>
      cases halike with
      | implements hdecl => exact hdecl.pieces
  | .bad _ =>
      cases halike with
      | bad hnode => exact .cons (.bad hnode) .nil

end

theorem Item.Alike.pieces {item item' : Item} (halike : Item.Alike like item item') :
    AllAlike like item.pieces item'.pieces := by
  cases halike with
  | const hstmt => exact hstmt.pieces
  | decl hdecl => exact hdecl.pieces
  | struct hdecl => exact hdecl.pieces fun _ _ => FieldDecl.Alike.pieces
  | interface hdecl => exact hdecl.pieces fun _ _ => InterfaceMember.Alike.pieces
  | enum hdecl => exact hdecl.pieces fun _ _ => alike_single
  | sum hdecl => exact hdecl.pieces fun _ _ => SumVariant.Alike.pieces
  | implements hdecl => exact hdecl.pieces

theorem File.Alike.items {file file' : File} (halike : File.Alike like file file') :
    List.Forall₂ (Item.Alike like) file.items file'.items := by
  have hmap {α : Type} {rel : α → α → Prop} {make : α → Item} {bucket bucket' : List α}
      (hbucket : List.Forall₂ rel bucket bucket')
      (hmake : ∀ {found found'}, rel found found' → Item.Alike like (make found) (make found')) :
      List.Forall₂ (Item.Alike like) (bucket.map make) (bucket'.map make) := by
    rw [List.forall₂_map_left_iff, List.forall₂_map_right_iff]
    exact hbucket.imp fun _ _ => hmake
  exact List.rel_append (List.rel_append (List.rel_append (List.rel_append (List.rel_append
    (List.rel_append (hmap halike.consts .const) (hmap halike.decls .decl))
    (hmap halike.structs .struct)) (hmap halike.interfaces .interface))
    (hmap halike.enums .enum)) (hmap halike.sums .sum)) (hmap halike.implements .implements)

/-- What corresponds to anything is among the known tokens. -/
structure Likeness.Within (like : Likeness) (known : List Token) : Prop where
  token : ∀ {token token'}, like.token token token' → token ∈ known
  bad : ∀ {node node'}, like.bad node node' → node.first ∈ known ∧ node.last ∈ known

theorem forall_mem_of_forall₂ {α : Type} {rel : α → α → Prop} {holds : α → Prop}
    (hrel : ∀ found found', rel found found' → holds found) {items items' : List α}
    (hitems : List.Forall₂ rel items items') : ∀ item ∈ items, holds item := by
  induction hitems with
  | nil => simp
  | cons hitem hrest ih => exact List.forall_mem_cons.2 ⟨hrel _ _ hitem, ih⟩

theorem Piece.AllAlike.within {known : List Token} (hwithin : like.Within known)
    {pieces pieces' : List Piece} (halike : AllAlike like pieces pieces') :
    (∀ token ∈ tokensOf pieces, token ∈ known) ∧
      ∀ node ∈ badNodesOf pieces, node.first ∈ known ∧ node.last ∈ known := by
  induction halike with
  | nil => simp [tokensOf]
  | cons hpiece hrest ih =>
      obtain ⟨htokens, hbad⟩ := ih
      cases hpiece with
      | token hstored | opens hstored | closes hstored =>
          refine ⟨?_, hbad⟩
          intro token htoken
          rcases List.mem_cons.1 htoken with rfl | htoken
          · exact hwithin.token hstored
          · exact htokens token htoken
      | bad hnode =>
          refine ⟨htokens, ?_⟩
          intro node hmem
          rcases List.mem_cons.1 hmem with rfl | hmem
          · exact hwithin.bad hnode
          · exact hbad node hmem

open Grammar

/-- The tokens that the parser reads: the comments are left out, and the list is cut off
behind its first end-of-file token; if it has none, one is added. -/
def inputTokens (tokens : List Token) : List Token :=
  let code := tokens.filter (·.kind ≠ .comment)
  code.takeWhile (·.kind ≠ .eof) ++
    [(code.find? (·.kind = .eof)).getD (Cursor.closingToken code)]

theorem Cursor.tokens_ofTokens (tokens : List Token) :
    (Cursor.ofTokens tokens).tokens = inputTokens tokens := rfl

theorem mem_inputTokens {tokens : List Token} {token : Token} : token ∈ inputTokens tokens ↔
    token ∈ (Cursor.ofTokens tokens).ahead ∨ token = (Cursor.ofTokens tokens).eof := by
  rw [← Cursor.tokens_ofTokens, Cursor.tokens]
  simp [Cursor.ofTokens]

/-- Where nothing corresponds to anything but what is read, a run is alike to itself. -/
theorem exists_alike_self (tokens : List Token) : ∃ like : Likeness,
    like.Within (inputTokens tokens) ∧ File.Alike like (parse tokens).file (parse tokens).file ∧
      List.Forall₂ (Diagnostic.Alike like) (parse tokens).diagnostics
        (parse tokens).diagnostics := by
  have hparse : (parse tokens).file = (file.run (initialState tokens)).1 ∧
      (parse tokens).diagnostics = (file.run (initialState tokens)).2.diagnostics.toList :=
    ⟨rfl, rfl⟩
  rw [hparse.1, hparse.2]
  by_cases hahead : (Cursor.ofTokens tokens).ahead = []
  · rw [initialState, file_run_of_ahead_nil _ hahead]
    refine ⟨.ofTokens fun token _ => token = (Cursor.ofTokens tokens).eof, ?_, ?_, ?_⟩
    · constructor
      · exact fun heof => mem_inputTokens.2 (.inr heof)
      · exact fun hbad => ⟨mem_inputTokens.2 (.inr hbad.1), mem_inputTokens.2 (.inr hbad.2.1)⟩
    · exact .ofItems (.inr ⟨⟨rfl, rfl⟩, rfl, rfl⟩) (.cons (.decl (.bad ⟨rfl, rfl, rfl⟩)) .nil)
    · exact .cons (.expected _ _ rfl) .nil
  · let eof := (Cursor.ofTokens tokens).eof
    let c := Coupling.ofShared (Cursor.ofTokens tokens).ahead (.together eof eof) [] [] hahead
      (by simp [Ending.closing]) (by simp [Ending.follow])
    have hnear : c.Near (initialState tokens) (initialState tokens) := by
      apply Coupling.near_ofShared
      · rfl
      · rfl
      · rfl
      · exact (List.append_nil _).symm
      · simp [Ending.closing, eof, initialState]
      all_goals rfl
    have hrelates : c.Relates (initialState tokens) (initialState tokens) := by
      obtain ⟨read, left, hplaced⟩ := hnear.placed
      exact ⟨hnear, read, left, .inr ⟨rfl, rfl⟩, hplaced⟩
    have htogether : c.Together := rfl
    have hmirrors : MirrorsAt c false True (fun _ => True) file file (File.Alike c.like) :=
      file_mirrors fun _ => htogether
    obtain ⟨hfile, hstop⟩ := hmirrors.ends trivial _ _ ⟨hrelates, trivial⟩
      fun hapart => absurd htogether hapart
    obtain ⟨added, added', hadded, hadded', hall⟩ := hstop.reports
    refine ⟨c.like, ?_, hfile, ?_⟩
    · have htied {token token' : Token} (htied : c.tied token token') :
          token ∈ inputTokens tokens := by
        rw [mem_inputTokens]
        rcases List.mem_append.1 htied with hword | hclosing
        · obtain ⟨shared, hshared, hpair⟩ := List.mem_map.1 hword
          exact .inl ((Prod.mk.inj hpair).1 ▸ hshared)
        · exact .inr (Prod.mk.inj (List.mem_singleton.1 hclosing)).1
      exact ⟨htied, fun hbad => ⟨htied hbad.2.1, htied hbad.2.2.1⟩⟩
    · obtain rfl : added = added' := hadded.symm.trans hadded'
      rw [hadded]
      exact hall

/-- The package clause was read, and its tokens are stored; or it failed, the file has absent
tokens for them, and the bad node of the clause is its first declaration. -/
theorem clause_outcome (tokens : List Token) :
    (∃ header, (packageClause.run.run (initialState tokens)).1 = .ok header ∧
        (parse tokens).file.package = header.1 ∧ (parse tokens).file.name = header.2 ∧
        header.1.kind = .packageKw ∧ header.2.kind = .ident) ∨
      ∃ bad, (packageClause.run.run (initialState tokens)).1 = .error bad ∧
        (parse tokens).file.package = .absent ∧ (parse tokens).file.name = .absent ∧
        (parse tokens).file.decls.head? = some (.bad bad) := by
  have hmakes := packageClause_makes (initialState tokens) trivial
  have hparse : (parse tokens).file = (file.run (initialState tokens)).1 := rfl
  cases hclause : packageClause.run.run (initialState tokens) with
  | mk outcome start =>
  obtain ⟨last, hrounds, hkind⟩ := exists_rounds [] start
  have hitems := items_gives_of_rounds hrounds hkind
  rw [hclause] at hmakes
  cases outcome with
  | ok header =>
      have hfile : Gives file (initialState tokens) _ last.2 :=
        .bind hclause (.bind hitems (.pure _ _))
      rw [hparse, hfile]
      exact .inl ⟨header, rfl, rfl, rfl, hmakes.1, hmakes.2⟩
  | error bad =>
      have hfile : Gives file (initialState tokens) _ last.2 :=
        .bind hclause (.bind hitems (.pure _ _))
      rw [hparse, hfile]
      exact .inr ⟨bad, rfl, rfl, rfl, rfl⟩

/-- The parser makes up no token.  What it reports, the ends of the bad nodes and all tokens
that its tree stores are tokens of its input, but for the absent tokens of a package clause
that failed; they stand in the file exactly if the clause did fail, and then its bad node is
the first declaration. -/
theorem parse_tokens_mem_input (tokens : List Token) :
    (∀ diagnostic ∈ (parse tokens).diagnostics, diagnostic.got ∈ inputTokens tokens) ∧
      (∀ node ∈ (parse tokens).file.badNodes,
        node.first ∈ inputTokens tokens ∧ node.last ∈ inputTokens tokens) ∧
      (∀ item ∈ (parse tokens).file.items, ∀ token ∈ item.tokens, token ∈ inputTokens tokens) ∧
      match (packageClause.run.run (initialState tokens)).1 with
      | .ok _ =>
          ((parse tokens).file.package ∈ inputTokens tokens ∧
            (parse tokens).file.name ∈ inputTokens tokens) ∧
          (parse tokens).file.package ≠ .absent ∧ (parse tokens).file.name ≠ .absent
      | .error bad =>
          ((parse tokens).file.package = .absent ∧ (parse tokens).file.name = .absent) ∧
          (parse tokens).file.decls.head? = some (.bad bad) := by
  obtain ⟨like, hwithin, hfile, hreports⟩ := exists_alike_self tokens
  have hitems : ∀ item ∈ (parse tokens).file.items,
      (∀ token ∈ item.tokens, token ∈ inputTokens tokens) ∧
        ∀ node ∈ item.badNodes, node.first ∈ inputTokens tokens ∧ node.last ∈ inputTokens tokens :=
    forall_mem_of_forall₂ (fun _ _ halike => halike.pieces.within hwithin) hfile.items
  refine ⟨?_, ?_, fun item hitem => (hitems item hitem).1, ?_⟩
  · exact forall_mem_of_forall₂ (fun _ _ halike => hwithin.token halike.got) hreports
  · intro node hnode
    rw [File.badNodes_eq] at hnode
    obtain ⟨item, hitem, hnode⟩ := List.mem_flatMap.1 hnode
    exact (hitems item hitem).2 node hnode
  · rcases clause_outcome tokens with
      ⟨header, hclause, hpackage, hname, hkind, hident⟩ | ⟨bad, hclause, hpackage, hname, hdecl⟩
    · have hpresent :
          (parse tokens).file.package ≠ .absent ∧ (parse tokens).file.name ≠ .absent := by
        rw [hpackage, hname]
        constructor
        · rintro habsent
          rw [habsent] at hkind
          exact absurd hkind (by decide)
        · rintro habsent
          rw [habsent] at hident
          exact absurd hident (by decide)
      rw [hclause]
      refine ⟨?_, hpresent⟩
      rcases hfile.header with ⟨hpackage, hname⟩ | ⟨⟨habsent, -⟩, -⟩
      · exact ⟨hwithin.token hpackage, hwithin.token hname⟩
      · exact absurd habsent hpresent.1
    · rw [hclause]
      exact ⟨⟨hpackage, hname⟩, hdecl⟩

end OriSyntax
