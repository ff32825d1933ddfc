import OriSyntax.Proofs.Readable

/-!
Reading files back from their outlines.  An outline shows all that a tree consists of except the
parentheses around the parameters of functions, methods and variants.
-/

namespace OriSyntax

/-- The parameters without the parentheses around them. -/
def ParamList.bare (params : ParamList) : ParamList := ⟨.absent, params.items, .absent⟩

/-- The member without the parentheses of its parameters. -/
def InterfaceMember.bare : InterfaceMember → InterfaceMember
  | method spec => method { spec with params := ParamList.bare spec.params }
  | embed name => embed name

/-- The variant without the parentheses of its parameters. -/
def SumVariant.bare (variant : SumVariant) : SumVariant :=
  { variant with params := variant.params.map ParamList.bare }

/-- The type with its members changed. -/
def TypeDecl.mapMembers {α : Type} (change : α → α) (decl : TypeDecl α) : TypeDecl α :=
  { decl with body := { decl.body with items := decl.body.items.map change } }

mutual

/-- The statement without the parentheses of parameters. -/
def Stmt.bare : Stmt → Stmt
  | .block body => .block (Stmt.bareBlock body)
  | .const decl => .const decl
  | .var decl => .var decl
  | .assign left op right => .assign left op right
  | .incDec target op => .incDec target op
  | .effect value => .effect value
  | .returns keyword values => .returns keyword values
  | .ifElse keyword condition body otherwise =>
      .ifElse keyword condition (Stmt.bareBlock body) (Stmt.bare? otherwise)
  | .forLoop keyword first condition after body =>
      .forLoop keyword (Stmt.bare? first) condition (Stmt.bare? after) (Stmt.bareBlock body)
  | .rangeLoop keyword key value op rangeKeyword subject body =>
      .rangeLoop keyword key value op rangeKeyword subject (Stmt.bareBlock body)
  | .switch keyword first tag ⟨opening, cases, closing⟩ =>
      .switch keyword (Stmt.bare? first) tag ⟨opening, Stmt.bareAll cases, closing⟩
  | .clause keyword values colon body => .clause keyword values colon (Stmt.bareAll body)
  | .breakLoop keyword => .breakLoop keyword
  | .continueLoop keyword => .continueLoop keyword
  | .fallThrough keyword => .fallThrough keyword
  | .decl decl => .decl decl.bare
  | .bad node => .bad node

/-- Statements in braces without the parentheses of parameters. -/
def Stmt.bareBlock : Enclosed Stmt → Enclosed Stmt
  | ⟨opening, stmts, closing⟩ => ⟨opening, Stmt.bareAll stmts, closing⟩

/-- A statement that may be missing, without the parentheses of parameters. -/
def Stmt.bare? : Option Stmt → Option Stmt
  | none => none
  | some stmt => some stmt.bare

/-- Statements without the parentheses of parameters. -/
def Stmt.bareAll : List Stmt → List Stmt
  | [] => []
  | stmt :: rest => stmt.bare :: Stmt.bareAll rest

/-- The function without the parentheses of parameters; those of its results stay. -/
def FuncDecl.bare : FuncDecl → FuncDecl
  | ⟨keyword, name, params, results, body⟩ =>
      ⟨keyword, name, ParamList.bare params, results, Stmt.bareBlock body⟩

/-- The declaration without the parentheses of parameters. -/
def Decl.bare : Decl → Decl
  | .func decl => .func decl.bare
  | .struct decl => .struct decl
  | .interface decl => .interface (decl.mapMembers InterfaceMember.bare)
  | .enum decl => .enum decl
  | .sum decl => .sum (decl.mapMembers SumVariant.bare)
  | .implements decl => .implements decl
  | .bad node => .bad node

end

/-- The file without the parentheses of parameters of functions, methods and variants. -/
def File.withoutParens (file : File) : File :=
  { file with
    consts := file.consts.map Stmt.bare
    decls := file.decls.map Decl.bare
    interfaces := file.interfaces.map (·.mapMembers InterfaceMember.bare)
    sums := file.sums.map (·.mapMembers SumVariant.bare) }

theorem ParamList.bare_of_outline {params params' : ParamList}
    (hsame : ParamList.outline params = ParamList.outline params') :
    ParamList.bare params = ParamList.bare params' := by
  have hitems : params.items.map Param.outline = params'.items.map Param.outline := by
    simpa [outline] using hsame
  rw [bare, bare, Param.outlines_inj hitems]

theorem Results.eq_of_map_outline {results results' : Option Results}
    (hsame : results.map Results.outline = results'.map Results.outline) : results = results' :=
  Option.map_injective (fun _ _ => Results.outline_inj) hsame

theorem InterfaceMember.bare_of_outline {member member' : InterfaceMember}
    (hsame : member.outline = member'.outline) : member.bare = member'.bare := by
  cases member with
  | method spec =>
      cases member' with
      | method spec' =>
          obtain ⟨name, params, results⟩ := spec
          obtain ⟨name', params', results'⟩ := spec'
          obtain ⟨rfl, hparams, hresults⟩ : name = name' ∧
              ParamList.outline params = ParamList.outline params' ∧
                results.map Results.outline = results'.map Results.outline := by
            simpa [outline] using hsame
          rw [bare, bare, ParamList.bare_of_outline hparams, Results.eq_of_map_outline hresults]
      | embed name => simp [outline] at hsame
  | embed name =>
      cases member' with
      | method spec => simp [outline] at hsame
      | embed name' =>
          have hnames : name.outlines = name'.outlines := by simpa [outline] using hsame
          rw [QualifiedName.outlines_inj hnames]

theorem SumVariant.bare_of_outline {variant variant' : SumVariant}
    (hsame : variant.outline = variant'.outline) : variant.bare = variant'.bare := by
  obtain ⟨name, params⟩ := variant
  obtain ⟨name', params'⟩ := variant'
  cases params with
  | none =>
      cases params' with
      | none =>
          obtain rfl : name = name' := by simpa [outline] using hsame
          rfl
      | some params' => simp [outline] at hsame
  | some params =>
      cases params' with
      | none => simp [outline] at hsame
      | some params' =>
          obtain ⟨rfl, hparams⟩ : name = name' ∧
              ParamList.outline params = ParamList.outline params' := by
            simpa [outline] using hsame
          have hbare := ParamList.bare_of_outline hparams
          simp [bare, hbare]

/-- What the outlines of members tell, the outline of the whole type tells. -/
theorem TypeDecl.mapMembers_of_outline {α : Type} {outline : α → Outline} (change : α → α)
    (hmembers : ∀ member member', outline member = outline member' →
      change member = change member')
    {name label members : String} {decl decl' : TypeDecl α}
    (hsame : TypeDecl.outline name label members outline decl =
      TypeDecl.outline name label members outline decl') :
    decl.mapMembers change = decl'.mapMembers change := by
  obtain ⟨typeKeyword, ident, keyword, ⟨opening, items, closing⟩⟩ := decl
  obtain ⟨typeKeyword', ident', keyword', ⟨opening', items', closing'⟩⟩ := decl'
  obtain ⟨rfl, rfl, rfl, rfl, hitems, rfl, -⟩ : typeKeyword = typeKeyword' ∧ ident = ident' ∧
      keyword = keyword' ∧ opening = opening' ∧ items.map outline = items'.map outline ∧
        closing = closing' ∧ _ := by
    simpa [TypeDecl.outline] using hsame
  have hchanged : items.map change = items'.map change :=
    map_eq_of_map_eq (fun member _ member' _ => hmembers member member') hitems
  simp [mapMembers, hchanged]

theorem TypeDecl.mapMembers_id {α : Type} (decl : TypeDecl α) : decl.mapMembers id = decl := by
  simp [mapMembers]

theorem StructDecl.outline_inj {decl decl' : StructDecl}
    (hsame : StructDecl.outline decl = StructDecl.outline decl') : decl = decl' := by
  have hmembers := TypeDecl.mapMembers_of_outline id (fun _ _ => FieldDecl.outline_inj) hsame
  rwa [TypeDecl.mapMembers_id, TypeDecl.mapMembers_id] at hmembers

theorem EnumDecl.outline_inj {decl decl' : EnumDecl}
    (hsame : EnumDecl.outline decl = EnumDecl.outline decl') : decl = decl' := by
  have hmembers := TypeDecl.mapMembers_of_outline id (fun _ _ => Outline.token_inj_iff.1) hsame
  rwa [TypeDecl.mapMembers_id, TypeDecl.mapMembers_id] at hmembers

theorem Decl.bare_of_outline {decl decl' : Decl} (hshaped : decl.ShapedType)
    (hshaped' : decl'.ShapedType) (hsame : decl.outline = decl'.outline) :
    decl.bare = decl'.bare := by
  have hname : decl.nodeName = decl'.nodeName := by
    rw [← decl.heading_outline, hsame, decl'.heading_outline]
  cases decl with
  | func _ | implements _ | bad _ => exact hshaped.elim
  | struct decl =>
      cases decl' with
      | func _ | implements _ | bad _ => exact hshaped'.elim
      | struct decl' =>
          rw [outline, outline] at hsame
          rw [StructDecl.outline_inj hsame]
      | _ => simp [nodeName] at hname
  | interface decl =>
      cases decl' with
      | func _ | implements _ | bad _ => exact hshaped'.elim
      | interface decl' =>
          rw [outline, outline] at hsame
          rw [bare, bare, TypeDecl.mapMembers_of_outline InterfaceMember.bare
            (fun _ _ => InterfaceMember.bare_of_outline) hsame]
      | _ => simp [nodeName] at hname
  | enum decl =>
      cases decl' with
      | func _ | implements _ | bad _ => exact hshaped'.elim
      | enum decl' =>
          rw [outline, outline] at hsame
          rw [EnumDecl.outline_inj hsame]
      | _ => simp [nodeName] at hname
  | sum decl =>
      cases decl' with
      | func _ | implements _ | bad _ => exact hshaped'.elim
      | sum decl' =>
          rw [outline, outline] at hsame
          rw [bare, bare, TypeDecl.mapMembers_of_outline SumVariant.bare
            (fun _ _ => SumVariant.bare_of_outline) hsame]
      | _ => simp [nodeName] at hname

theorem Expr.eq_of_map_outline {expr expr' : Option Expr}
    (hsame : expr.map Expr.outline = expr'.map Expr.outline) : expr = expr' :=
  Option.map_injective Expr.outline_inj hsame

theorem Stmt.outline?_eq (label : String) (part : Option Stmt) :
    Stmt.outline? label part = Outline.child? label Stmt.outline part := by
  cases part <;> simp [Stmt.outline?, Outline.child?]

/-- Clauses with one keyword both show their values, or neither has any. -/
theorem CaseValues.eq_of_outline {keyword : Token} {values values' : List Expr}
    {rest rest' : List Outline} (hvalues : CaseValues keyword values)
    (hvalues' : CaseValues keyword values')
    (hsame : (if keyword.kind = .defaultKw then []
        else [Outline.listing "Values" (Expr.outlines values)]) ++ rest =
      (if keyword.kind = .defaultKw then []
        else [Outline.listing "Values" (Expr.outlines values')]) ++ rest') :
    values = values' ∧ rest = rest' := by
  rcases hvalues with ⟨hcase, -⟩ | ⟨hdefault, rfl⟩
  · obtain ⟨hshown, hrest⟩ : Expr.outlines values = Expr.outlines values' ∧ rest = rest' := by
      simpa [hcase] using hsame
    exact ⟨Expr.outlines_inj values values' hshown, hrest⟩
  · rcases hvalues' with ⟨hcase', -⟩ | ⟨-, rfl⟩
    · simp [hcase'] at hdefault
    · exact ⟨rfl, by simpa [hdefault] using hsame⟩

/-- The parts of a branching statement, as its outline tells them. -/
theorem Stmt.told_of_ifElse {keyword keyword' : Token} {condition condition' : Expr}
    {body body' : Enclosed Stmt} {otherwise otherwise' : Option Stmt}
    (hsame : (Stmt.ifElse keyword condition body otherwise).outline =
      (Stmt.ifElse keyword' condition' body' otherwise').outline) :
    keyword = keyword' ∧ condition = condition' ∧
      Stmt.blockOutline body = Stmt.blockOutline body' ∧
      otherwise.map Stmt.outline = otherwise'.map Stmt.outline := by
  have hparts := congrArg Outline.parts hsame
  obtain ⟨rfl, hcondition, hthen, helse⟩ : keyword = keyword' ∧
      condition.outline = condition'.outline ∧
        Stmt.blockOutline body = Stmt.blockOutline body' ∧
          otherwise.map Stmt.outline = otherwise'.map Stmt.outline := by
    simpa [outline, Stmt.outline?_eq] using hparts
  exact ⟨rfl, Expr.outline_inj condition condition' hcondition, hthen, helse⟩

/-- The parts of a loop over clauses, each of which may be missing. -/
theorem Stmt.told_of_forLoop {keyword keyword' : Token} {first first' : Option Stmt}
    {condition condition' : Option Expr} {after after' : Option Stmt}
    {body body' : Enclosed Stmt}
    (hsame : (Stmt.forLoop keyword first condition after body).outline =
      (Stmt.forLoop keyword' first' condition' after' body').outline) :
    keyword = keyword' ∧ first.map Stmt.outline = first'.map Stmt.outline ∧
      condition = condition' ∧ after.map Stmt.outline = after'.map Stmt.outline ∧
      Stmt.blockOutline body = Stmt.blockOutline body' := by
  have hparts := congrArg Outline.parts hsame
  obtain ⟨rfl, hheader⟩ : keyword = keyword' ∧
      Outline.child? "Init" Stmt.outline first ++
          (Outline.child? "Condition" Expr.outline condition ++
            (Outline.child? "Post" Stmt.outline after ++
              [.child "Body" (Stmt.blockOutline body)])) =
        Outline.child? "Init" Stmt.outline first' ++
          (Outline.child? "Condition" Expr.outline condition' ++
            (Outline.child? "Post" Stmt.outline after' ++
              [.child "Body" (Stmt.blockOutline body')])) := by
    simpa [outline, Stmt.outline?_eq] using hparts
  obtain ⟨hinit, htested⟩ := Outline.child?_append_inj (by simp) (by simp) hheader
  obtain ⟨htest, hclosed⟩ := Outline.child?_append_inj (by simp) (by simp) htested
  obtain ⟨hpost, hend⟩ := Outline.child?_append_inj (by simp) (by simp) hclosed
  exact ⟨rfl, hinit, Expr.eq_of_map_outline htest, hpost, by simpa using hend⟩

/-- The parts of a loop over a range.  Its operator is missing just when its key is, so that
the tokens behind the key can be told apart. -/
theorem Stmt.told_of_rangeLoop {keyword keyword' : Token} {key key' value value' : Option Expr}
    {op op' : Option Token} {rangeKeyword rangeKeyword' : Token} {subject subject' : Expr}
    {body body' : Enclosed Stmt} (hop : key.isSome ↔ op.isSome)
    (hop' : key'.isSome ↔ op'.isSome)
    (hsame : (Stmt.rangeLoop keyword key value op rangeKeyword subject body).outline =
      (Stmt.rangeLoop keyword' key' value' op' rangeKeyword' subject' body').outline) :
    keyword = keyword' ∧ key = key' ∧ value = value' ∧ op = op' ∧
      rangeKeyword = rangeKeyword' ∧ subject = subject' ∧
      Stmt.blockOutline body = Stmt.blockOutline body' := by
  have hparts := congrArg Outline.parts hsame
  obtain ⟨rfl, hheader⟩ : keyword = keyword' ∧
      Outline.child? "Key" Expr.outline key ++
          (Outline.child? "Value" Expr.outline value ++ (Outline.token? "Op" op ++
            [.token "Range" rangeKeyword, .child "X" subject.outline,
              .child "Body" (Stmt.blockOutline body)])) =
        Outline.child? "Key" Expr.outline key' ++
          (Outline.child? "Value" Expr.outline value' ++ (Outline.token? "Op" op' ++
            [.token "Range" rangeKeyword', .child "X" subject'.outline,
              .child "Body" (Stmt.blockOutline body')])) := by
    simpa [outline] using hparts
  obtain ⟨hkey, hvalued⟩ := Outline.child?_append_inj (by simp) (by simp) hheader
  obtain ⟨hvalue, hranged⟩ := Outline.child?_append_inj (by simp) (by simp) hvalued
  obtain rfl := Expr.eq_of_map_outline hkey
  have hsome : op.isSome = op'.isSome := Bool.eq_iff_iff.2 (hop.symm.trans hop')
  obtain ⟨rfl, hend⟩ := Outline.token?_append_inj hsome hranged
  obtain ⟨rfl, hsubject, hblock⟩ : rangeKeyword = rangeKeyword' ∧
      subject.outline = subject'.outline ∧
        Stmt.blockOutline body = Stmt.blockOutline body' := by
    simpa using hend
  exact ⟨rfl, rfl, Expr.eq_of_map_outline hvalue, rfl, rfl,
    Expr.outline_inj subject subject' hsubject, hblock⟩

/-- The parts of a switch. -/
theorem Stmt.told_of_switch {keyword keyword' : Token} {first first' : Option Stmt}
    {tag tag' : Option Expr} {opening opening' closing closing' : Token}
    {cases cases' : List Stmt}
    (hsame : (Stmt.switch keyword first tag ⟨opening, cases, closing⟩).outline =
      (Stmt.switch keyword' first' tag' ⟨opening', cases', closing'⟩).outline) :
    keyword = keyword' ∧ first.map Stmt.outline = first'.map Stmt.outline ∧ tag = tag' ∧
      opening = opening' ∧ Stmt.outlines cases = Stmt.outlines cases' ∧ closing = closing' := by
  have hparts := congrArg Outline.parts hsame
  obtain ⟨rfl, hheader⟩ : keyword = keyword' ∧
      Outline.child? "Init" Stmt.outline first ++
          (Outline.child? "Tag" Expr.outline tag ++ [.token "LBrace" opening,
            .listing "Cases" (Stmt.outlines cases), .token "RBrace" closing]) =
        Outline.child? "Init" Stmt.outline first' ++
          (Outline.child? "Tag" Expr.outline tag' ++ [.token "LBrace" opening',
            .listing "Cases" (Stmt.outlines cases'), .token "RBrace" closing']) := by
    simpa [outline, Stmt.outline?_eq] using hparts
  obtain ⟨hinit, htagged⟩ := Outline.child?_append_inj (by simp) (by simp) hheader
  obtain ⟨htag, hend⟩ := Outline.child?_append_inj (by simp) (by simp) htagged
  exact ⟨rfl, hinit, Expr.eq_of_map_outline htag, by simpa using hend⟩

/-- The parts of a clause of a switch, whose values its keyword announces. -/
theorem Stmt.told_of_clause {keyword keyword' : Token} {values values' : List Expr}
    {colon colon' : Token} {body body' : List Stmt} (hvalues : CaseValues keyword values)
    (hvalues' : CaseValues keyword' values')
    (hsame : (Stmt.clause keyword values colon body).outline =
      (Stmt.clause keyword' values' colon' body').outline) :
    keyword = keyword' ∧ values = values' ∧ colon = colon' ∧
      Stmt.outlines body = Stmt.outlines body' := by
  have hparts := congrArg Outline.parts hsame
  rw [outline, outline, Outline.parts_node, Outline.parts_node] at hparts
  obtain ⟨hkeyword, hclause⟩ := List.cons.inj hparts
  obtain rfl := Outline.token_inj_iff.1 hkeyword
  obtain ⟨rfl, hend⟩ := hvalues.eq_of_outline hvalues' hclause
  exact ⟨rfl, rfl, by simpa using hend⟩

/-- Whether no statement and no declaration stands inside the statement. -/
def Stmt.isLeaf : Stmt → Bool
  | .const _ | .var _ | .assign .. | .incDec .. | .effect _ | .returns .. | .breakLoop _
  | .continueLoop _ | .fallThrough _ | .bad _ => true
  | _ => false

/-- Without statements inside there are no parameters, so such a statement is read back as it
is. -/
theorem Stmt.eq_of_outline_of_isLeaf {stmt stmt' : Stmt} (hleaf : stmt.isLeaf)
    (hsame : stmt.outline = stmt'.outline) : stmt = stmt' := by
  have hname : stmt.nodeName = stmt'.nodeName := by
    rw [← stmt.heading_outline, hsame, stmt'.heading_outline]
  have hparts : stmt.outline.parts = stmt'.outline.parts := congrArg Outline.parts hsame
  cases stmt with
  | const value =>
      cases stmt' with
      | const value' =>
          rw [outline, outline] at hsame
          rw [ValueDecl.outline_inj hsame]
      | _ => simp [nodeName] at hname
  | var value =>
      cases stmt' with
      | var value' =>
          rw [outline, outline] at hsame
          rw [ValueDecl.outline_inj hsame]
      | _ => simp [nodeName] at hname
  | assign left op right =>
      cases stmt' with
      | assign left' op' right' =>
          obtain ⟨hleft, rfl, hright⟩ : left.outline = left'.outline ∧ op = op' ∧
              right.outline = right'.outline := by
            simpa [outline] using hparts
          rw [Expr.outline_inj left left' hleft, Expr.outline_inj right right' hright]
      | _ => simp [nodeName] at hname
  | incDec target op =>
      cases stmt' with
      | incDec target' op' =>
          obtain ⟨htarget, rfl⟩ : target.outline = target'.outline ∧ op = op' := by
            simpa [outline] using hparts
          rw [Expr.outline_inj target target' htarget]
      | _ => simp [nodeName] at hname
  | effect value =>
      cases stmt' with
      | effect value' =>
          have hvalue : value.outline = value'.outline := by simpa [outline] using hparts
          rw [Expr.outline_inj value value' hvalue]
      | _ => simp [nodeName] at hname
  | returns keyword values =>
      cases stmt' with
      | returns keyword' values' =>
          obtain ⟨rfl, hvalues⟩ : keyword = keyword' ∧
              Expr.outlines values = Expr.outlines values' := by
            simpa [outline] using hparts
          rw [Expr.outlines_inj values values' hvalues]
      | _ => simp [nodeName] at hname
  | breakLoop keyword =>
      cases stmt' with
      | breakLoop keyword' =>
          obtain rfl : keyword = keyword' := by simpa [outline] using hparts
          rfl
      | _ => simp [nodeName] at hname
  | continueLoop keyword =>
      cases stmt' with
      | continueLoop keyword' =>
          obtain rfl : keyword = keyword' := by simpa [outline] using hparts
          rfl
      | _ => simp [nodeName] at hname
  | fallThrough keyword =>
      cases stmt' with
      | fallThrough keyword' =>
          obtain rfl : keyword = keyword' := by simpa [outline] using hparts
          rfl
      | _ => simp [nodeName] at hname
  | bad node =>
      cases stmt' with
      | bad node' =>
          rw [outline, outline] at hsame
          rw [BadNode.outline_inj hsame]
      | _ => simp [nodeName] at hname
  | _ => simp [isLeaf] at hleaf

mutual

/-- A statement can be read back from its outline but for parentheses. -/
theorem Stmt.bare_of_outline (stmt stmt' : Stmt) (hshaped : stmt.Shaped)
    (hshaped' : stmt'.Shaped) (hsame : stmt.outline = stmt'.outline) :
    stmt.bare = stmt'.bare := by
  have hname : stmt.nodeName = stmt'.nodeName := by
    rw [← stmt.heading_outline, hsame, stmt'.heading_outline]
  match stmt with
  | .block body =>
      cases stmt' with
      | block body' =>
          rw [Shaped] at hshaped hshaped'
          rw [outline, outline] at hsame
          rw [bare, bare, Stmt.bareBlock_of_outline body body' hshaped hshaped' hsame]
      | _ => simp [nodeName] at hname
  | .ifElse keyword condition body otherwise =>
      cases stmt' with
      | ifElse keyword' condition' body' otherwise' =>
          rw [Shaped] at hshaped hshaped'
          obtain ⟨-, -, hbody, hotherwise⟩ := hshaped
          obtain ⟨-, -, hbody', hotherwise'⟩ := hshaped'
          obtain ⟨rfl, rfl, hthen, helse⟩ := Stmt.told_of_ifElse hsame
          rw [bare, bare, Stmt.bareBlock_of_outline body body' hbody hbody' hthen,
            Stmt.bare?_of_outline otherwise otherwise' hotherwise hotherwise' helse]
      | _ => simp [nodeName] at hname
  | .forLoop keyword first condition after body =>
      cases stmt' with
      | forLoop keyword' first' condition' after' body' =>
          rw [Shaped] at hshaped hshaped'
          obtain ⟨-, hfirst, -, hafter, hbody⟩ := hshaped
          obtain ⟨-, hfirst', -, hafter', hbody'⟩ := hshaped'
          obtain ⟨rfl, hinit, rfl, hpost, hblock⟩ := Stmt.told_of_forLoop hsame
          rw [bare, bare, Stmt.bare?_of_outline first first' hfirst hfirst' hinit,
            Stmt.bare?_of_outline after after' hafter hafter' hpost,
            Stmt.bareBlock_of_outline body body' hbody hbody' hblock]
      | _ => simp [nodeName] at hname
  | .rangeLoop keyword key value op rangeKeyword subject body =>
      cases stmt' with
      | rangeLoop keyword' key' value' op' rangeKeyword' subject' body' =>
          rw [Shaped] at hshaped hshaped'
          obtain ⟨-, htargets, -, -, hbody⟩ := hshaped
          obtain ⟨-, htargets', -, -, hbody'⟩ := hshaped'
          obtain ⟨rfl, rfl, rfl, rfl, rfl, rfl, hblock⟩ :=
            Stmt.told_of_rangeLoop htargets.key_iff_op htargets'.key_iff_op hsame
          rw [bare, bare, Stmt.bareBlock_of_outline body body' hbody hbody' hblock]
      | _ => simp [nodeName] at hname
  | .switch keyword first tag ⟨opening, cases, closing⟩ =>
      cases stmt' with
      | switch keyword' first' tag' block' =>
          obtain ⟨opening', cases', closing'⟩ := block'
          rw [Shaped] at hshaped hshaped'
          obtain ⟨-, hfirst, -, -, hcases, -, -⟩ := hshaped
          obtain ⟨-, hfirst', -, -, hcases', -, -⟩ := hshaped'
          obtain ⟨rfl, hinit, rfl, rfl, hclauses, rfl⟩ := Stmt.told_of_switch hsame
          rw [bare, bare, Stmt.bare?_of_outline first first' hfirst hfirst' hinit,
            Stmt.bareAll_of_outlines cases cases' hcases hcases' hclauses]
      | _ => simp [nodeName] at hname
  | .clause keyword values colon body =>
      cases stmt' with
      | clause keyword' values' colon' body' =>
          rw [Shaped] at hshaped hshaped'
          obtain ⟨hvalues, -, -, hbody⟩ := hshaped
          obtain ⟨hvalues', -, -, hbody'⟩ := hshaped'
          obtain ⟨rfl, rfl, rfl, hstmts⟩ := Stmt.told_of_clause hvalues hvalues' hsame
          rw [bare, bare, Stmt.bareAll_of_outlines body body' hbody hbody' hstmts]
      | _ => simp [nodeName] at hname
  | .decl inner =>
      cases stmt' with
      | decl inner' =>
          rw [Shaped] at hshaped hshaped'
          have hinner : inner.outline = inner'.outline := by
            simpa [outline] using congrArg Outline.parts hsame
          rw [bare, bare, Decl.bare_of_outline hshaped hshaped' hinner]
      | _ => simp [nodeName] at hname
  | .const _ | .var _ | .assign .. | .incDec .. | .effect _ | .returns .. | .breakLoop _
  | .continueLoop _ | .fallThrough _ | .bad _ => rw [Stmt.eq_of_outline_of_isLeaf rfl hsame]
termination_by structural stmt

theorem Stmt.bareBlock_of_outline (body body' : Enclosed Stmt) (hshaped : Stmt.ShapedBlock body)
    (hshaped' : Stmt.ShapedBlock body')
    (hsame : Stmt.blockOutline body = Stmt.blockOutline body') :
    Stmt.bareBlock body = Stmt.bareBlock body' := by
  obtain ⟨opening, stmts, closing⟩ := body
  obtain ⟨opening', stmts', closing'⟩ := body'
  rw [ShapedBlock] at hshaped hshaped'
  obtain ⟨rfl, hstmts, rfl⟩ : opening = opening' ∧ Stmt.outlines stmts = Stmt.outlines stmts' ∧
      closing = closing' := by
    simpa [blockOutline] using hsame
  rw [bareBlock, bareBlock,
    Stmt.bareAll_of_outlines stmts stmts' hshaped.2.1 hshaped'.2.1 hstmts]
termination_by structural body

theorem Stmt.bare?_of_outline (part part' : Option Stmt) {allowed : Stmt → Bool}
    (hshaped : Stmt.ShapedPart allowed part) (hshaped' : Stmt.ShapedPart allowed part')
    (hsame : part.map Stmt.outline = part'.map Stmt.outline) :
    Stmt.bare? part = Stmt.bare? part' := by
  match part, part' with
  | none, none => rfl
  | none, some _ => simp at hsame
  | some _, none => simp at hsame
  | some stmt, some stmt' =>
      rw [ShapedPart] at hshaped hshaped'
      rw [Option.map_some, Option.map_some, Option.some.injEq] at hsame
      rw [bare?, bare?, Stmt.bare_of_outline stmt stmt' hshaped.2 hshaped'.2 hsame]
termination_by structural part

theorem Stmt.bareAll_of_outlines (stmts stmts' : List Stmt) {allowed : Stmt → Bool}
    (hshaped : Stmt.ShapedAll allowed stmts) (hshaped' : Stmt.ShapedAll allowed stmts')
    (hsame : Stmt.outlines stmts = Stmt.outlines stmts') :
    Stmt.bareAll stmts = Stmt.bareAll stmts' := by
  match stmts, stmts' with
  | [], [] => rfl
  | [], _ :: _ => simp [outlines] at hsame
  | _ :: _, [] => simp [outlines] at hsame
  | stmt :: rest, stmt' :: rest' =>
      rw [ShapedAll] at hshaped hshaped'
      rw [outlines, outlines, List.cons.injEq] at hsame
      rw [bareAll, bareAll, Stmt.bare_of_outline stmt stmt' hshaped.2.1 hshaped'.2.1 hsame.1,
        Stmt.bareAll_of_outlines rest rest' hshaped.2.2 hshaped'.2.2 hsame.2]
termination_by structural stmts

end

theorem FuncDecl.bare_of_outline {decl decl' : FuncDecl} (hshaped : decl.Shaped)
    (hshaped' : decl'.Shaped) (hsame : decl.outline = decl'.outline) :
    decl.bare = decl'.bare := by
  obtain ⟨keyword, name, params, results, body⟩ := decl
  obtain ⟨keyword', name', params', results', body'⟩ := decl'
  obtain ⟨rfl, rfl, hparams, hrest⟩ : keyword = keyword' ∧ name = name' ∧
      ParamList.outline params = ParamList.outline params' ∧
        Outline.child? "Results" Results.outline results ++
            [.child "Body" (Stmt.blockOutline body)] =
          Outline.child? "Results" Results.outline results' ++
            [.child "Body" (Stmt.blockOutline body')] := by
    simpa [outline] using hsame
  obtain ⟨hresults, hend⟩ := Outline.child?_append_inj (by simp) (by simp) hrest
  have hblock : Stmt.blockOutline body = Stmt.blockOutline body' := by simpa using hend
  rw [bare, bare, ParamList.bare_of_outline hparams, Results.eq_of_map_outline hresults,
    Stmt.bareBlock_of_outline body body' hshaped.body hshaped'.body hblock]

theorem Decl.bare_of_outline_item {decl decl' : Decl} (hshaped : decl.ShapedItem)
    (hshaped' : decl'.ShapedItem) (hsame : decl.outline = decl'.outline) :
    decl.bare = decl'.bare := by
  have hname : decl.nodeName = decl'.nodeName := by
    rw [← decl.heading_outline, hsame, decl'.heading_outline]
  cases decl with
  | func decl =>
      cases decl' with
      | func decl' =>
          rw [outline, outline] at hsame
          rw [bare, bare, FuncDecl.bare_of_outline hshaped hshaped' hsame]
      | bad node' => simp [nodeName] at hname
      | _ => exact hshaped'.elim
  | bad node =>
      cases decl' with
      | func decl' => simp [nodeName] at hname
      | bad node' =>
          rw [outline, outline] at hsame
          rw [BadNode.outline_inj hsame]
      | _ => exact hshaped'.elim
  | _ => exact hshaped.elim

/-- A constant of a file can be read back as it is. -/
theorem Stmt.shaped_of_shapedConst {stmt : Stmt} (hshaped : stmt.ShapedConst) : stmt.Shaped := by
  cases stmt with
  | const value => rwa [Shaped]
  | bad node => exact shaped_bad node
  | _ => exact hshaped.elim

/-- A file can be read back from its outline but for parentheses around parameters. -/
theorem File.withoutParens_of_outline {file file' : File} (hshaped : file.Shaped)
    (hshaped' : file'.Shaped) (hsame : file.outline = file'.outline) :
    file.withoutParens = file'.withoutParens := by
  obtain ⟨package, name, consts, decls, structs, interfaces, enums, sums, implements⟩ := file
  obtain ⟨package', name', consts', decls', structs', interfaces', enums', sums', implements'⟩ :=
    file'
  obtain ⟨rfl, rfl, hconsts, hdecls, hstructs, hinterfaces, henums, hsums, himplements⟩ :
      package = package' ∧ name = name' ∧
        consts.map Stmt.outline = consts'.map Stmt.outline ∧
        decls.map Decl.outline = decls'.map Decl.outline ∧
        structs.map StructDecl.outline = structs'.map StructDecl.outline ∧
        interfaces.map InterfaceDecl.outline = interfaces'.map InterfaceDecl.outline ∧
        enums.map EnumDecl.outline = enums'.map EnumDecl.outline ∧
        sums.map SumDecl.outline = sums'.map SumDecl.outline ∧
        implements.map ImplementsDecl.outline = implements'.map ImplementsDecl.outline := by
    simpa [outline] using hsame
  have hconsts : consts.map Stmt.bare = consts'.map Stmt.bare :=
    map_eq_of_map_eq (fun stmt hstmt stmt' hstmt' =>
      Stmt.bare_of_outline stmt stmt' (Stmt.shaped_of_shapedConst (hshaped.consts stmt hstmt))
        (Stmt.shaped_of_shapedConst (hshaped'.consts stmt' hstmt'))) hconsts
  have hdecls : decls.map Decl.bare = decls'.map Decl.bare :=
    map_eq_of_map_eq (fun decl hdecl decl' hdecl' =>
      Decl.bare_of_outline_item (hshaped.decls decl hdecl) (hshaped'.decls decl' hdecl')) hdecls
  have hstructs : structs = structs' :=
    (List.map_inj_right fun _ _ => StructDecl.outline_inj).1 hstructs
  have hinterfaces : interfaces.map (·.mapMembers InterfaceMember.bare) =
      interfaces'.map (·.mapMembers InterfaceMember.bare) :=
    map_eq_of_map_eq (fun _ _ _ _ => TypeDecl.mapMembers_of_outline InterfaceMember.bare
      fun _ _ => InterfaceMember.bare_of_outline) hinterfaces
  have henums : enums = enums' := (List.map_inj_right fun _ _ => EnumDecl.outline_inj).1 henums
  have hsums : sums.map (·.mapMembers SumVariant.bare) =
      sums'.map (·.mapMembers SumVariant.bare) :=
    map_eq_of_map_eq (fun _ _ _ _ => TypeDecl.mapMembers_of_outline SumVariant.bare
      fun _ _ => SumVariant.bare_of_outline) hsums
  have himplements : implements = implements' :=
    (List.map_inj_right fun _ _ => ImplementsDecl.outline_inj).1 himplements
  simp [withoutParens, hconsts, hdecls, hstructs, hinterfaces, henums, hsums, himplements]

end OriSyntax
