import OriSyntax.Proofs.Alike

/-!
Trees that coincide.  Where a token corresponds to itself only, and a bad node likewise, trees
that are alike are the same.
-/

namespace OriSyntax

/-- Nothing corresponds to anything but itself. -/
structure Likeness.Exact (like : Likeness) : Prop where
  token : ∀ {token token'}, like.token token token' → token' = token
  bad : ∀ {node node'}, like.bad node node' → node' = node

variable {like : Likeness}

theorem eq_of_forall₂ {α : Type} {rel : α → α → Prop} (hrel : ∀ {item item'}, rel item item' →
    item' = item) {items items' : List α} (hitems : List.Forall₂ rel items items') :
    items' = items := by
  induction hitems with
  | nil => rfl
  | cons hitem hrest ih => rw [hrel hitem, ih]

theorem eq_of_optionRel {α : Type} {rel : α → α → Prop} (hrel : ∀ {item item'}, rel item item' →
    item' = item) {found found' : Option α} (hfound : Option.Rel rel found found') :
    found' = found := by
  cases hfound with
  | none => rfl
  | some hitem => rw [hrel hitem]

theorem Enclosed.Alike.eq (hexact : like.Exact) {α : Type} {item : α → α → Prop}
    (hitem : ∀ {found found'}, item found found' → found' = found) {body body' : Enclosed α}
    (halike : Enclosed.Alike like item body body') : body' = body := by
  cases halike with
  | intro hopening hitems hclosing =>
      rw [hexact.token hopening, eq_of_forall₂ hitem hitems, hexact.token hclosing]

theorem TypeExpr.Alike.eq (hexact : like.Exact) {type type' : TypeExpr}
    (halike : TypeExpr.Alike like type type') : type' = type := by
  cases halike with
  | named hname => rw [hexact.token hname]
  | bad hnode => rw [hexact.bad hnode]

mutual

theorem Expr.Alike.eq (hexact : like.Exact) {expr expr' : Expr}
    (halike : Expr.Alike like expr expr') : expr' = expr := by
  match expr with
  | .ident _ =>
      cases halike with
      | ident hname => rw [hexact.token hname]
  | .literal .. =>
      cases halike with
      | literal hvalue => rw [hexact.token hvalue]
  | .paren .. =>
      cases halike with
      | paren hopening hinner hclosing =>
          rw [hexact.token hopening, Expr.Alike.eq hexact hinner, hexact.token hclosing]
  | .unary .. =>
      cases halike with
      | unary hop hoperand => rw [hexact.token hop, Expr.Alike.eq hexact hoperand]
  | .binary .. =>
      cases halike with
      | binary hleft hop hright =>
          rw [Expr.Alike.eq hexact hleft, hexact.token hop, Expr.Alike.eq hexact hright]
  | .selector .. =>
      cases halike with
      | selector hbase hdot hname =>
          rw [Expr.Alike.eq hexact hbase, hexact.token hdot, hexact.token hname]
  | .index .. =>
      cases halike with
      | index hbase hopening hinner hclosing =>
          rw [Expr.Alike.eq hexact hbase, hexact.token hopening, Expr.Alike.eq hexact hinner,
            hexact.token hclosing]
  | .call _ ⟨_, _, _⟩ =>
      cases halike with
      | call hcallee hargs =>
          cases hargs with
          | intro hopening hitems hclosing =>
              rw [Expr.Alike.eq hexact hcallee, hexact.token hopening,
                Expr.Alike.eqAll hexact hitems, hexact.token hclosing]
  | .bad _ =>
      cases halike with
      | bad hnode => rw [hexact.bad hnode]

theorem Expr.Alike.eqAll (hexact : like.Exact) {exprs exprs' : List Expr}
    (halike : List.Forall₂ (Expr.Alike like) exprs exprs') : exprs' = exprs := by
  match exprs with
  | [] =>
      cases halike
      rfl
  | expr :: rest =>
      cases halike with
      | cons hexpr hrest => rw [Expr.Alike.eq hexact hexpr, Expr.Alike.eqAll hexact hrest]

end

theorem ValueDecl.Alike.eq (hexact : like.Exact) {decl decl' : ValueDecl}
    (halike : ValueDecl.Alike like decl decl') : decl' = decl := by
  cases halike with
  | intro hkeyword hname htype heq hvalue =>
      rw [hexact.token hkeyword, hexact.token hname,
        eq_of_optionRel (TypeExpr.Alike.eq hexact) htype, hexact.token heq, hvalue.eq hexact]

theorem Param.Alike.eq (hexact : like.Exact) {param param' : Param}
    (halike : Param.Alike like param param') : param' = param := by
  cases halike with
  | intro hname htype => rw [eq_of_optionRel hexact.token hname, htype.eq hexact]

theorem ParamList.Alike.eq (hexact : like.Exact) {params params' : ParamList}
    (halike : ParamList.Alike like params params') : params' = params :=
  Enclosed.Alike.eq hexact (Param.Alike.eq hexact) halike

theorem Results.Alike.eq (hexact : like.Exact) {results results' : Results}
    (halike : Results.Alike like results results') : results' = results := by
  cases halike with
  | single htype => rw [htype.eq hexact]
  | list hparams => rw [ParamList.Alike.eq hexact hparams]

theorem Qualifier.Alike.eq (hexact : like.Exact) {qualifier qualifier' : Qualifier}
    (halike : Qualifier.Alike like qualifier qualifier') : qualifier' = qualifier := by
  cases halike with
  | intro hpackage hdot => rw [hexact.token hpackage, hexact.token hdot]

theorem QualifiedName.Alike.eq (hexact : like.Exact) {name name' : QualifiedName}
    (halike : QualifiedName.Alike like name name') : name' = name := by
  cases halike with
  | intro hqualifier hname =>
      rw [eq_of_optionRel (Qualifier.Alike.eq hexact) hqualifier, hexact.token hname]

theorem Default.Alike.eq (hexact : like.Exact) {default default' : Default}
    (halike : Default.Alike like default default') : default' = default := by
  cases halike with
  | intro heq hvalue => rw [hexact.token heq, hvalue.eq hexact]

theorem FieldDecl.Alike.eq (hexact : like.Exact) {field field' : FieldDecl}
    (halike : FieldDecl.Alike like field field') : field' = field := by
  cases halike with
  | intro hname htype hdefault =>
      rw [hexact.token hname, htype.eq hexact, eq_of_optionRel (Default.Alike.eq hexact) hdefault]

theorem InterfaceMember.Alike.eq (hexact : like.Exact) {member member' : InterfaceMember}
    (halike : InterfaceMember.Alike like member member') : member' = member := by
  cases halike with
  | method hname hparams hresults =>
      rw [hexact.token hname, ParamList.Alike.eq hexact hparams,
        eq_of_optionRel (Results.Alike.eq hexact) hresults]
  | embed hname => rw [hname.eq hexact]

theorem SumVariant.Alike.eq (hexact : like.Exact) {variant variant' : SumVariant}
    (halike : SumVariant.Alike like variant variant') : variant' = variant := by
  cases halike with
  | intro hname hparams =>
      rw [hexact.token hname, eq_of_optionRel (ParamList.Alike.eq hexact) hparams]

theorem TypeDecl.Alike.eq (hexact : like.Exact) {α : Type} {member : α → α → Prop}
    (hmember : ∀ {found found'}, member found found' → found' = found) {decl decl' : TypeDecl α}
    (halike : TypeDecl.Alike like member decl decl') : decl' = decl := by
  cases halike with
  | intro htypeKeyword hname hkeyword hbody =>
      rw [hexact.token htypeKeyword, hexact.token hname, hexact.token hkeyword,
        hbody.eq hexact hmember]

theorem ImplementsDecl.Alike.eq (hexact : like.Exact) {decl decl' : ImplementsDecl}
    (halike : ImplementsDecl.Alike like decl decl') : decl' = decl := by
  cases halike with
  | intro htypeName hkeyword hinterface =>
      rw [hexact.token htypeName, hexact.token hkeyword, hinterface.eq hexact]

mutual

theorem Stmt.Alike.eq (hexact : like.Exact) {stmt stmt' : Stmt}
    (halike : Stmt.Alike like stmt stmt') : stmt' = stmt := by
  match stmt with
  | .block _ =>
      cases halike with
      | block hbody => rw [Stmt.Alike.eqBlock hexact hbody]
  | .const _ =>
      cases halike with
      | const hdecl => rw [hdecl.eq hexact]
  | .var _ =>
      cases halike with
      | var hdecl => rw [hdecl.eq hexact]
  | .assign .. =>
      cases halike with
      | assign hleft hop hright => rw [hleft.eq hexact, hexact.token hop, hright.eq hexact]
  | .incDec .. =>
      cases halike with
      | incDec htarget hop => rw [htarget.eq hexact, hexact.token hop]
  | .effect _ =>
      cases halike with
      | effect hvalue => rw [hvalue.eq hexact]
  | .returns .. =>
      cases halike with
      | returns hkeyword hvalues =>
          rw [hexact.token hkeyword, Expr.Alike.eqAll hexact hvalues]
  | .ifElse .. =>
      cases halike with
      | ifElse hkeyword hcondition hbody hotherwise =>
          rw [hexact.token hkeyword, hcondition.eq hexact, Stmt.Alike.eqBlock hexact hbody,
            Stmt.Alike.eqOption hexact hotherwise]
  | .forLoop .. =>
      cases halike with
      | forLoop hkeyword hfirst hcondition hafter hbody =>
          rw [hexact.token hkeyword, Stmt.Alike.eqOption hexact hfirst,
            eq_of_optionRel (Expr.Alike.eq hexact) hcondition, Stmt.Alike.eqOption hexact hafter,
            Stmt.Alike.eqBlock hexact hbody]
  | .rangeLoop .. =>
      cases halike with
      | rangeLoop hkeyword hkey hvalue hop hrangeKeyword hsubject hbody =>
          rw [hexact.token hkeyword, eq_of_optionRel (Expr.Alike.eq hexact) hkey,
            eq_of_optionRel (Expr.Alike.eq hexact) hvalue, eq_of_optionRel hexact.token hop,
            hexact.token hrangeKeyword, hsubject.eq hexact, Stmt.Alike.eqBlock hexact hbody]
  | .switch .. =>
      cases halike with
      | switch hkeyword hfirst htag hcases =>
          rw [hexact.token hkeyword, Stmt.Alike.eqOption hexact hfirst,
            eq_of_optionRel (Expr.Alike.eq hexact) htag, Stmt.Alike.eqBlock hexact hcases]
  | .clause .. =>
      cases halike with
      | clause hkeyword hvalues hcolon hbody =>
          rw [hexact.token hkeyword, Expr.Alike.eqAll hexact hvalues, hexact.token hcolon,
            Stmt.Alike.eqAll hexact hbody]
  | .breakLoop _ =>
      cases halike with
      | breakLoop hkeyword => rw [hexact.token hkeyword]
  | .continueLoop _ =>
      cases halike with
      | continueLoop hkeyword => rw [hexact.token hkeyword]
  | .fallThrough _ =>
      cases halike with
      | fallThrough hkeyword => rw [hexact.token hkeyword]
  | .decl _ =>
      cases halike with
      | decl hdecl => rw [Decl.Alike.eq hexact hdecl]
  | .bad _ =>
      cases halike with
      | bad hnode => rw [hexact.bad hnode]

theorem Stmt.Alike.eqAll (hexact : like.Exact) {stmts stmts' : List Stmt}
    (halike : List.Forall₂ (Stmt.Alike like) stmts stmts') : stmts' = stmts := by
  match stmts with
  | [] =>
      cases halike
      rfl
  | stmt :: rest =>
      cases halike with
      | cons hstmt hrest => rw [Stmt.Alike.eq hexact hstmt, Stmt.Alike.eqAll hexact hrest]

theorem Stmt.Alike.eqOption (hexact : like.Exact) {found found' : Option Stmt}
    (halike : Option.Rel (Stmt.Alike like) found found') : found' = found := by
  match found with
  | none =>
      cases halike
      rfl
  | some _ =>
      cases halike with
      | some hstmt => rw [Stmt.Alike.eq hexact hstmt]

theorem Stmt.Alike.eqBlock (hexact : like.Exact) {body body' : Block}
    (halike : Enclosed.Alike like (Stmt.Alike like) body body') : body' = body := by
  match body with
  | ⟨_, _, _⟩ =>
      cases halike with
      | intro hopening hstmts hclosing =>
          rw [hexact.token hopening, Stmt.Alike.eqAll hexact hstmts, hexact.token hclosing]

theorem Decl.Alike.eq (hexact : like.Exact) {decl decl' : Decl}
    (halike : Decl.Alike like decl decl') : decl' = decl := by
  match decl with
  | .func ⟨_, _, _, _, _⟩ =>
      cases halike with
      | func hdecl =>
          cases hdecl with
          | intro hkeyword hname hparams hresults hbody =>
              rw [hexact.token hkeyword, hexact.token hname, ParamList.Alike.eq hexact hparams,
                eq_of_optionRel (Results.Alike.eq hexact) hresults, Stmt.Alike.eqBlock hexact hbody]
  | .struct _ =>
      cases halike with
      | struct hdecl => rw [hdecl.eq hexact (FieldDecl.Alike.eq hexact)]
  | .interface _ =>
      cases halike with
      | interface hdecl => rw [hdecl.eq hexact (InterfaceMember.Alike.eq hexact)]
  | .enum _ =>
      cases halike with
      | enum hdecl => rw [hdecl.eq hexact hexact.token]
  | .sum _ =>
      cases halike with
      | sum hdecl => rw [hdecl.eq hexact (SumVariant.Alike.eq hexact)]
  | .implements _ =>
      cases halike with
      | implements hdecl => rw [hdecl.eq hexact]
  | .bad _ =>
      cases halike with
      | bad hnode => rw [hexact.bad hnode]

end

theorem Item.Alike.eq (hexact : like.Exact) {item item' : Item}
    (halike : Item.Alike like item item') : item' = item := by
  cases halike with
  | const hstmt => rw [hstmt.eq hexact]
  | decl hdecl => rw [hdecl.eq hexact]
  | struct hdecl => rw [hdecl.eq hexact (FieldDecl.Alike.eq hexact)]
  | interface hdecl => rw [hdecl.eq hexact (InterfaceMember.Alike.eq hexact)]
  | enum hdecl => rw [hdecl.eq hexact hexact.token]
  | sum hdecl => rw [hdecl.eq hexact (SumVariant.Alike.eq hexact)]
  | implements hdecl => rw [hdecl.eq hexact]

theorem Diagnostic.Alike.eq (hexact : like.Exact) {diagnostic diagnostic' : Diagnostic}
    (halike : Diagnostic.Alike like diagnostic diagnostic') : diagnostic' = diagnostic := by
  obtain ⟨code, severity, message, got, notes⟩ := diagnostic
  obtain ⟨code', severity', message', got', notes'⟩ := diagnostic'
  obtain rfl : code' = code := halike.code
  obtain rfl : severity' = severity := halike.severity
  obtain rfl : message' = message := halike.message
  obtain rfl : got' = got := hexact.token halike.got
  obtain rfl : notes' = notes := halike.notes
  rfl

end OriSyntax
