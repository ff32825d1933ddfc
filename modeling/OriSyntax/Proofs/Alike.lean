import Mathlib.Data.List.Forall2
import OriSyntax.Diagnostic
import OriSyntax.Tree.Extent

/-!
Trees of one shape.  Two trees are alike if they differ in their tokens only, and where
they do the tokens correspond to each other.
-/

namespace OriSyntax

/-- What corresponds to what in two trees. -/
structure Likeness where
  token : Token → Token → Prop
  bad : BadNode → BadNode → Prop

/-- Bad nodes correspond if their tokens do and their reasons are the same. -/
def Likeness.ofTokens (token : Token → Token → Prop) : Likeness where
  token := token
  bad node node' := token node.first node'.first ∧ token node.last node'.last ∧
    node'.reason = node.reason

/-- Enclosed items that are alike one by one. -/
inductive Enclosed.Alike {α : Type} (like : Likeness) (item : α → α → Prop) :
    Enclosed α → Enclosed α → Prop where
  | intro {opening opening' closing closing' : Token} {items items' : List α}
      (hopening : like.token opening opening') (hitems : List.Forall₂ item items items')
      (hclosing : like.token closing closing') :
      Enclosed.Alike like item ⟨opening, items, closing⟩ ⟨opening', items', closing'⟩

inductive TypeExpr.Alike (like : Likeness) : TypeExpr → TypeExpr → Prop where
  | named {name name' : Token} (hname : like.token name name') :
      TypeExpr.Alike like (.named name) (.named name')
  | bad {node node' : BadNode} (hnode : like.bad node node') :
      TypeExpr.Alike like (.bad node) (.bad node')

inductive Expr.Alike (like : Likeness) : Expr → Expr → Prop where
  | ident {name name' : Token} (hname : like.token name name') :
      Expr.Alike like (.ident name) (.ident name')
  | literal {sort : LiteralSort} {value value' : Token} (hvalue : like.token value value') :
      Expr.Alike like (.literal sort value) (.literal sort value')
  | paren {opening opening' closing closing' : Token} {inner inner' : Expr}
      (hopening : like.token opening opening') (hinner : Expr.Alike like inner inner')
      (hclosing : like.token closing closing') :
      Expr.Alike like (.paren opening inner closing) (.paren opening' inner' closing')
  | unary {op op' : Token} {operand operand' : Expr} (hop : like.token op op')
      (hoperand : Expr.Alike like operand operand') :
      Expr.Alike like (.unary op operand) (.unary op' operand')
  | binary {left left' right right' : Expr} {op op' : Token}
      (hleft : Expr.Alike like left left') (hop : like.token op op')
      (hright : Expr.Alike like right right') :
      Expr.Alike like (.binary left op right) (.binary left' op' right')
  | selector {base base' : Expr} {dot dot' name name' : Token}
      (hbase : Expr.Alike like base base') (hdot : like.token dot dot')
      (hname : like.token name name') :
      Expr.Alike like (.selector base dot name) (.selector base' dot' name')
  | index {base base' inner inner' : Expr} {opening opening' closing closing' : Token}
      (hbase : Expr.Alike like base base') (hopening : like.token opening opening')
      (hinner : Expr.Alike like inner inner') (hclosing : like.token closing closing') :
      Expr.Alike like (.index base opening inner closing)
        (.index base' opening' inner' closing')
  | call {callee callee' : Expr} {args args' : Enclosed Expr}
      (hcallee : Expr.Alike like callee callee')
      (hargs : Enclosed.Alike like (Expr.Alike like) args args') :
      Expr.Alike like (.call callee args) (.call callee' args')
  | bad {node node' : BadNode} (hnode : like.bad node node') :
      Expr.Alike like (.bad node) (.bad node')

inductive ValueDecl.Alike (like : Likeness) : ValueDecl → ValueDecl → Prop where
  | intro {keyword keyword' name name' eq eq' : Token} {type type' : Option TypeExpr}
      {value value' : Expr} (hkeyword : like.token keyword keyword')
      (hname : like.token name name') (htype : Option.Rel (TypeExpr.Alike like) type type')
      (heq : like.token eq eq') (hvalue : Expr.Alike like value value') :
      ValueDecl.Alike like ⟨keyword, name, type, eq, value⟩ ⟨keyword', name', type', eq', value'⟩

inductive Param.Alike (like : Likeness) : Param → Param → Prop where
  | intro {name name' : Option Token} {type type' : TypeExpr}
      (hname : Option.Rel like.token name name') (htype : TypeExpr.Alike like type type') :
      Param.Alike like ⟨name, type⟩ ⟨name', type'⟩

abbrev ParamList.Alike (like : Likeness) : ParamList → ParamList → Prop :=
  Enclosed.Alike like (Param.Alike like)

inductive Results.Alike (like : Likeness) : Results → Results → Prop where
  | single {type type' : TypeExpr} (htype : TypeExpr.Alike like type type') :
      Results.Alike like (.single type) (.single type')
  | list {params params' : ParamList} (hparams : ParamList.Alike like params params') :
      Results.Alike like (.list params) (.list params')

inductive Qualifier.Alike (like : Likeness) : Qualifier → Qualifier → Prop where
  | intro {package package' dot dot' : Token} (hpackage : like.token package package')
      (hdot : like.token dot dot') : Qualifier.Alike like ⟨package, dot⟩ ⟨package', dot'⟩

inductive QualifiedName.Alike (like : Likeness) : QualifiedName → QualifiedName → Prop where
  | intro {qualifier qualifier' : Option Qualifier} {name name' : Token}
      (hqualifier : Option.Rel (Qualifier.Alike like) qualifier qualifier')
      (hname : like.token name name') :
      QualifiedName.Alike like ⟨qualifier, name⟩ ⟨qualifier', name'⟩

inductive Default.Alike (like : Likeness) : Default → Default → Prop where
  | intro {eq eq' : Token} {value value' : Expr} (heq : like.token eq eq')
      (hvalue : Expr.Alike like value value') : Default.Alike like ⟨eq, value⟩ ⟨eq', value'⟩

inductive FieldDecl.Alike (like : Likeness) : FieldDecl → FieldDecl → Prop where
  | intro {name name' : Token} {type type' : TypeExpr} {default default' : Option Default}
      (hname : like.token name name') (htype : TypeExpr.Alike like type type')
      (hdefault : Option.Rel (Default.Alike like) default default') :
      FieldDecl.Alike like ⟨name, type, default⟩ ⟨name', type', default'⟩

inductive InterfaceMember.Alike (like : Likeness) :
    InterfaceMember → InterfaceMember → Prop where
  | method {name name' : Token} {params params' : ParamList}
      {results results' : Option Results} (hname : like.token name name')
      (hparams : ParamList.Alike like params params')
      (hresults : Option.Rel (Results.Alike like) results results') :
      InterfaceMember.Alike like (.method ⟨name, params, results⟩)
        (.method ⟨name', params', results'⟩)
  | embed {name name' : QualifiedName} (hname : QualifiedName.Alike like name name') :
      InterfaceMember.Alike like (.embed name) (.embed name')

inductive SumVariant.Alike (like : Likeness) : SumVariant → SumVariant → Prop where
  | intro {name name' : Token} {params params' : Option ParamList}
      (hname : like.token name name')
      (hparams : Option.Rel (ParamList.Alike like) params params') :
      SumVariant.Alike like ⟨name, params⟩ ⟨name', params'⟩

/-- Type declarations whose members are alike one by one. -/
inductive TypeDecl.Alike {α : Type} (like : Likeness) (member : α → α → Prop) :
    TypeDecl α → TypeDecl α → Prop where
  | intro {typeKeyword typeKeyword' name name' keyword keyword' : Token}
      {body body' : Enclosed α} (htypeKeyword : like.token typeKeyword typeKeyword')
      (hname : like.token name name') (hkeyword : like.token keyword keyword')
      (hbody : Enclosed.Alike like member body body') :
      TypeDecl.Alike like member ⟨typeKeyword, name, keyword, body⟩
        ⟨typeKeyword', name', keyword', body'⟩

inductive ImplementsDecl.Alike (like : Likeness) : ImplementsDecl → ImplementsDecl → Prop where
  | intro {typeName typeName' keyword keyword' : Token} {interface interface' : QualifiedName}
      (htypeName : like.token typeName typeName') (hkeyword : like.token keyword keyword')
      (hinterface : QualifiedName.Alike like interface interface') :
      ImplementsDecl.Alike like ⟨typeName, keyword, interface⟩
        ⟨typeName', keyword', interface'⟩

mutual

inductive Stmt.Alike (like : Likeness) : Stmt → Stmt → Prop where
  | block {body body' : Block} (hbody : Enclosed.Alike like (Stmt.Alike like) body body') :
      Stmt.Alike like (.block body) (.block body')
  | const {decl decl' : ValueDecl} (hdecl : ValueDecl.Alike like decl decl') :
      Stmt.Alike like (.const decl) (.const decl')
  | var {decl decl' : ValueDecl} (hdecl : ValueDecl.Alike like decl decl') :
      Stmt.Alike like (.var decl) (.var decl')
  | assign {left left' right right' : Expr} {op op' : Token}
      (hleft : Expr.Alike like left left') (hop : like.token op op')
      (hright : Expr.Alike like right right') :
      Stmt.Alike like (.assign left op right) (.assign left' op' right')
  | incDec {target target' : Expr} {op op' : Token} (htarget : Expr.Alike like target target')
      (hop : like.token op op') : Stmt.Alike like (.incDec target op) (.incDec target' op')
  | effect {value value' : Expr} (hvalue : Expr.Alike like value value') :
      Stmt.Alike like (.effect value) (.effect value')
  | returns {keyword keyword' : Token} {values values' : List Expr}
      (hkeyword : like.token keyword keyword')
      (hvalues : List.Forall₂ (Expr.Alike like) values values') :
      Stmt.Alike like (.returns keyword values) (.returns keyword' values')
  | ifElse {keyword keyword' : Token} {condition condition' : Expr} {body body' : Block}
      {otherwise otherwise' : Option Stmt} (hkeyword : like.token keyword keyword')
      (hcondition : Expr.Alike like condition condition')
      (hbody : Enclosed.Alike like (Stmt.Alike like) body body')
      (hotherwise : Option.Rel (Stmt.Alike like) otherwise otherwise') :
      Stmt.Alike like (.ifElse keyword condition body otherwise)
        (.ifElse keyword' condition' body' otherwise')
  | forLoop {keyword keyword' : Token} {first first' : Option Stmt}
      {condition condition' : Option Expr} {after after' : Option Stmt} {body body' : Block}
      (hkeyword : like.token keyword keyword')
      (hfirst : Option.Rel (Stmt.Alike like) first first')
      (hcondition : Option.Rel (Expr.Alike like) condition condition')
      (hafter : Option.Rel (Stmt.Alike like) after after')
      (hbody : Enclosed.Alike like (Stmt.Alike like) body body') :
      Stmt.Alike like (.forLoop keyword first condition after body)
        (.forLoop keyword' first' condition' after' body')
  | rangeLoop {keyword keyword' rangeKeyword rangeKeyword' : Token}
      {key key' value value' : Option Expr} {op op' : Option Token} {subject subject' : Expr}
      {body body' : Block} (hkeyword : like.token keyword keyword')
      (hkey : Option.Rel (Expr.Alike like) key key')
      (hvalue : Option.Rel (Expr.Alike like) value value')
      (hop : Option.Rel like.token op op')
      (hrangeKeyword : like.token rangeKeyword rangeKeyword')
      (hsubject : Expr.Alike like subject subject')
      (hbody : Enclosed.Alike like (Stmt.Alike like) body body') :
      Stmt.Alike like (.rangeLoop keyword key value op rangeKeyword subject body)
        (.rangeLoop keyword' key' value' op' rangeKeyword' subject' body')
  | switch {keyword keyword' : Token} {first first' : Option Stmt} {tag tag' : Option Expr}
      {cases cases' : Block} (hkeyword : like.token keyword keyword')
      (hfirst : Option.Rel (Stmt.Alike like) first first')
      (htag : Option.Rel (Expr.Alike like) tag tag')
      (hcases : Enclosed.Alike like (Stmt.Alike like) cases cases') :
      Stmt.Alike like (.switch keyword first tag cases) (.switch keyword' first' tag' cases')
  | clause {keyword keyword' colon colon' : Token} {values values' : List Expr}
      {body body' : List Stmt} (hkeyword : like.token keyword keyword')
      (hvalues : List.Forall₂ (Expr.Alike like) values values')
      (hcolon : like.token colon colon')
      (hbody : List.Forall₂ (Stmt.Alike like) body body') :
      Stmt.Alike like (.clause keyword values colon body) (.clause keyword' values' colon' body')
  | breakLoop {keyword keyword' : Token} (hkeyword : like.token keyword keyword') :
      Stmt.Alike like (.breakLoop keyword) (.breakLoop keyword')
  | continueLoop {keyword keyword' : Token} (hkeyword : like.token keyword keyword') :
      Stmt.Alike like (.continueLoop keyword) (.continueLoop keyword')
  | fallThrough {keyword keyword' : Token} (hkeyword : like.token keyword keyword') :
      Stmt.Alike like (.fallThrough keyword) (.fallThrough keyword')
  | decl {decl decl' : Decl} (hdecl : Decl.Alike like decl decl') :
      Stmt.Alike like (.decl decl) (.decl decl')
  | bad {node node' : BadNode} (hnode : like.bad node node') :
      Stmt.Alike like (.bad node) (.bad node')

inductive FuncDecl.Alike (like : Likeness) : FuncDecl → FuncDecl → Prop where
  | intro {keyword keyword' name name' : Token} {params params' : ParamList}
      {results results' : Option Results} {body body' : Block}
      (hkeyword : like.token keyword keyword') (hname : like.token name name')
      (hparams : ParamList.Alike like params params')
      (hresults : Option.Rel (Results.Alike like) results results')
      (hbody : Enclosed.Alike like (Stmt.Alike like) body body') :
      FuncDecl.Alike like ⟨keyword, name, params, results, body⟩
        ⟨keyword', name', params', results', body'⟩

inductive Decl.Alike (like : Likeness) : Decl → Decl → Prop where
  | func {decl decl' : FuncDecl} (hdecl : FuncDecl.Alike like decl decl') :
      Decl.Alike like (.func decl) (.func decl')
  | struct {decl decl' : StructDecl}
      (hdecl : TypeDecl.Alike like (FieldDecl.Alike like) decl decl') :
      Decl.Alike like (.struct decl) (.struct decl')
  | interface {decl decl' : InterfaceDecl}
      (hdecl : TypeDecl.Alike like (InterfaceMember.Alike like) decl decl') :
      Decl.Alike like (.interface decl) (.interface decl')
  | enum {decl decl' : EnumDecl} (hdecl : TypeDecl.Alike like like.token decl decl') :
      Decl.Alike like (.enum decl) (.enum decl')
  | sum {decl decl' : SumDecl} (hdecl : TypeDecl.Alike like (SumVariant.Alike like) decl decl') :
      Decl.Alike like (.sum decl) (.sum decl')
  | implements {decl decl' : ImplementsDecl} (hdecl : ImplementsDecl.Alike like decl decl') :
      Decl.Alike like (.implements decl) (.implements decl')
  | bad {node node' : BadNode} (hnode : like.bad node node') :
      Decl.Alike like (.bad node) (.bad node')

end

inductive Item.Alike (like : Likeness) : Item → Item → Prop where
  | const {stmt stmt' : Stmt} (hstmt : Stmt.Alike like stmt stmt') :
      Item.Alike like (.const stmt) (.const stmt')
  | decl {decl decl' : Decl} (hdecl : Decl.Alike like decl decl') :
      Item.Alike like (.decl decl) (.decl decl')
  | struct {decl decl' : StructDecl}
      (hdecl : TypeDecl.Alike like (FieldDecl.Alike like) decl decl') :
      Item.Alike like (.struct decl) (.struct decl')
  | interface {decl decl' : InterfaceDecl}
      (hdecl : TypeDecl.Alike like (InterfaceMember.Alike like) decl decl') :
      Item.Alike like (.interface decl) (.interface decl')
  | enum {decl decl' : EnumDecl} (hdecl : TypeDecl.Alike like like.token decl decl') :
      Item.Alike like (.enum decl) (.enum decl')
  | sum {decl decl' : SumDecl} (hdecl : TypeDecl.Alike like (SumVariant.Alike like) decl decl') :
      Item.Alike like (.sum decl) (.sum decl')
  | implements {decl decl' : ImplementsDecl} (hdecl : ImplementsDecl.Alike like decl decl') :
      Item.Alike like (.implements decl) (.implements decl')

/-- Files that are alike bucket by bucket.  The tokens of the package clause correspond, or
neither file has any. -/
structure File.Alike (like : Likeness) (file file' : File) : Prop where
  header : like.token file.package file'.package ∧ like.token file.name file'.name ∨
    (file.package = .absent ∧ file.name = .absent) ∧
      file'.package = .absent ∧ file'.name = .absent
  consts : List.Forall₂ (Stmt.Alike like) file.consts file'.consts
  decls : List.Forall₂ (Decl.Alike like) file.decls file'.decls
  structs : List.Forall₂ (TypeDecl.Alike like (FieldDecl.Alike like)) file.structs file'.structs
  interfaces : List.Forall₂ (TypeDecl.Alike like (InterfaceMember.Alike like))
    file.interfaces file'.interfaces
  enums : List.Forall₂ (TypeDecl.Alike like like.token) file.enums file'.enums
  sums : List.Forall₂ (TypeDecl.Alike like (SumVariant.Alike like)) file.sums file'.sums
  implements : List.Forall₂ (ImplementsDecl.Alike like) file.implements file'.implements

/-- Reports of the same mistake. -/
structure Diagnostic.Alike (like : Likeness) (diagnostic diagnostic' : Diagnostic) : Prop where
  code : diagnostic'.code = diagnostic.code
  severity : diagnostic'.severity = diagnostic.severity
  message : diagnostic'.message = diagnostic.message
  got : like.token diagnostic.got diagnostic'.got
  notes : diagnostic'.notes = diagnostic.notes

/-- Tokens that correspond are of one kind and have one value, and bad nodes that correspond
have ends that do. -/
structure Likeness.Faithful (like : Likeness) : Prop where
  kind : ∀ {token token'}, like.token token token' → token'.kind = token.kind
  value : ∀ {token token'}, like.token token token' → token'.value = token.value
  first : ∀ {node node'}, like.bad node node' → like.token node.first node'.first
  last : ∀ {node node'}, like.bad node node' → like.token node.last node'.last

section Shared

variable {like : Likeness}

theorem Enclosed.Alike.opening {α : Type} {item : α → α → Prop} {body body' : Enclosed α}
    (halike : Enclosed.Alike like item body body') : like.token body.opening body'.opening := by
  cases halike with
  | intro hopening hitems hclosing => exact hopening

theorem Enclosed.Alike.items {α : Type} {item : α → α → Prop} {body body' : Enclosed α}
    (halike : Enclosed.Alike like item body body') :
    List.Forall₂ item body.items body'.items := by
  cases halike with
  | intro hopening hitems hclosing => exact hitems

theorem Enclosed.Alike.closing {α : Type} {item : α → α → Prop} {body body' : Enclosed α}
    (halike : Enclosed.Alike like item body body') : like.token body.closing body'.closing := by
  cases halike with
  | intro hopening hitems hclosing => exact hclosing

namespace Expr.Alike

variable {expr expr' : Expr}

theorem isAssignable (halike : Expr.Alike like expr expr') :
    expr'.isAssignable = expr.isAssignable := by
  cases halike <;> rfl

theorem isCall (halike : Expr.Alike like expr expr') : expr'.isCall = expr.isCall := by
  cases halike <;> rfl

theorem isComparison (hlike : like.Faithful) (halike : Expr.Alike like expr expr') :
    expr'.isComparison = expr.isComparison := by
  cases halike with
  | binary hleft hop hright => simp [Expr.isComparison, Expr.binaryOp?, hlike.kind hop]
  | _ => rfl

end Expr.Alike

theorem Expr.Alike.first (hlike : like.Faithful) {expr expr' : Expr}
    (halike : Expr.Alike like expr expr') : like.token expr.first expr'.first := by
  match expr with
  | .ident _ | .literal .. | .paren .. | .unary .. =>
      cases halike with
      | _ => assumption
  | .bad _ =>
      cases halike with
      | bad hnode => exact hlike.first hnode
  | .binary left _ _ =>
      cases halike with
      | binary hleft hop hright => exact (Expr.Alike.first hlike hleft :)
  | .selector base _ _ =>
      cases halike with
      | selector hbase hdot hname => exact (Expr.Alike.first hlike hbase :)
  | .index base _ _ _ =>
      cases halike with
      | index hbase hopening hinner hclosing => exact (Expr.Alike.first hlike hbase :)
  | .call callee _ =>
      cases halike with
      | call hcallee hargs => exact (Expr.Alike.first hlike hcallee :)

theorem Expr.Alike.last (hlike : like.Faithful) {expr expr' : Expr}
    (halike : Expr.Alike like expr expr') : like.token expr.last expr'.last := by
  match expr with
  | .ident _ | .literal .. | .paren .. | .selector .. | .index .. =>
      cases halike with
      | _ => assumption
  | .bad _ =>
      cases halike with
      | bad hnode => exact hlike.last hnode
  | .unary _ operand =>
      cases halike with
      | unary hop hoperand => exact (Expr.Alike.last hlike hoperand :)
  | .binary _ _ right =>
      cases halike with
      | binary hleft hop hright => exact (Expr.Alike.last hlike hright :)
  | .call _ args =>
      cases halike with
      | call hcallee hargs => exact hargs.closing

theorem QualifiedName.Alike.last {name name' : QualifiedName}
    (halike : QualifiedName.Alike like name name') : like.token name.last name'.last := by
  cases halike with
  | intro hqualifier hname => exact hname

theorem Decl.Alike.last (hlike : like.Faithful) {decl decl' : Decl}
    (halike : Decl.Alike like decl decl') : like.token decl.last decl'.last := by
  cases halike with
  | func hdecl =>
      cases hdecl with
      | intro hkeyword hname hparams hresults hbody => exact hbody.closing
  | struct hdecl | interface hdecl | enum hdecl | sum hdecl =>
      cases hdecl with
      | intro htypeKeyword hname hkeyword hbody => exact hbody.closing
  | implements hdecl =>
      cases hdecl with
      | intro htypeName hkeyword hinterface => exact hinterface.last
  | bad hnode => exact hlike.last hnode

theorem ValueDecl.Alike.last (hlike : like.Faithful) {decl decl' : ValueDecl}
    (halike : ValueDecl.Alike like decl decl') : like.token decl.last decl'.last := by
  cases halike with
  | intro hkeyword hname htype heq hvalue => exact hvalue.last hlike

theorem Decl.Alike.first (hlike : like.Faithful) {decl decl' : Decl}
    (halike : Decl.Alike like decl decl') : like.token decl.first decl'.first := by
  cases halike with
  | bad hnode => exact hlike.first hnode
  | _ hdecl =>
      cases hdecl with
      | intro => assumption

theorem Stmt.Alike.first (hlike : like.Faithful) {stmt stmt' : Stmt}
    (halike : Stmt.Alike like stmt stmt') : like.token stmt.first stmt'.first := by
  cases halike with
  | block hbody => exact hbody.opening
  | assign hexpr | incDec hexpr | effect hexpr => exact hexpr.first hlike
  | const hdecl | var hdecl =>
      cases hdecl with
      | intro hkeyword => exact hkeyword
  | decl hdecl => exact hdecl.first hlike
  | bad hnode => exact hlike.first hnode
  | _ => assumption

/-- The tokens at which two lists of expressions end correspond. -/
theorem Expr.Alike.getLast (hlike : like.Faithful) {before before' : Token}
    (hbefore : like.token before before') {exprs exprs' : List Expr}
    (halike : List.Forall₂ (Expr.Alike like) exprs exprs') :
    like.token ((exprs.getLast?.map Expr.last).getD before)
      ((exprs'.getLast?.map Expr.last).getD before') := by
  induction halike generalizing before before' with
  | nil => exact hbefore
  | cons hexpr hrest ih =>
      rw [List.getLast?_cons, List.getLast?_cons]
      simpa [Option.getD_map] using ih (hexpr.last hlike)

mutual

theorem Stmt.Alike.last (hlike : like.Faithful) {stmt stmt' : Stmt}
    (halike : Stmt.Alike like stmt stmt') : like.token stmt.last stmt'.last := by
  match stmt with
  | .block _ =>
      cases halike with
      | block hbody => exact hbody.closing
  | .const _ | .var _ =>
      cases halike with
      | _ hdecl => exact hdecl.last hlike
  | .assign _ _ _ =>
      cases halike with
      | assign hleft hop hright => exact hright.last hlike
  | .incDec _ _ =>
      cases halike with
      | incDec htarget hop => exact hop
  | .effect _ =>
      cases halike with
      | effect hvalue => exact hvalue.last hlike
  | .returns _ _ =>
      cases halike with
      | returns hkeyword hvalues => exact Expr.Alike.getLast hlike hkeyword hvalues
  | .ifElse _ _ _ none =>
      cases halike with
      | ifElse hkeyword hcondition hbody hotherwise =>
          cases hotherwise with
          | none => exact hbody.closing
  | .ifElse _ _ _ (some otherwise) =>
      cases halike with
      | ifElse hkeyword hcondition hbody hotherwise =>
          cases hotherwise with
          | some hstmt => exact (Stmt.Alike.last hlike hstmt :)
  | .forLoop _ _ _ _ _ =>
      cases halike with
      | forLoop hkeyword hfirst hcondition hafter hbody => exact hbody.closing
  | .rangeLoop _ _ _ _ _ _ _ =>
      cases halike with
      | rangeLoop hkeyword hkey hvalue hop hrangeKeyword hsubject hbody => exact hbody.closing
  | .switch _ _ _ _ =>
      cases halike with
      | switch hkeyword hfirst htag hcases => exact hcases.closing
  | .clause _ _ _ body =>
      cases halike with
      | clause hkeyword hvalues hcolon hbody => exact Stmt.Alike.lastOf hlike hcolon hbody
  | .breakLoop _ | .continueLoop _ | .fallThrough _ =>
      cases halike with
      | _ hkeyword => exact hkeyword
  | .decl _ =>
      cases halike with
      | decl hdecl => exact hdecl.last hlike
  | .bad _ =>
      cases halike with
      | bad hnode => exact hlike.last hnode

theorem Stmt.Alike.lastOf (hlike : like.Faithful) {before before' : Token}
    (hbefore : like.token before before') {stmts stmts' : List Stmt}
    (halike : List.Forall₂ (Stmt.Alike like) stmts stmts') :
    like.token (Stmt.lastOf before stmts) (Stmt.lastOf before' stmts') := by
  match stmts with
  | [] =>
      cases halike
      simpa only [Stmt.lastOf] using hbefore
  | [stmt] =>
      cases halike with
      | cons hstmt hrest =>
          cases hrest
          simpa only [Stmt.lastOf] using Stmt.Alike.last hlike hstmt
  | stmt :: second :: rest =>
      cases halike with
      | cons hstmt hrest =>
          have htail := Stmt.Alike.lastOf hlike hbefore hrest
          cases hrest
          simpa only [Stmt.lastOf] using htail

end

theorem Item.Alike.ofTypeDecl {decl decl' : Decl} (halike : Decl.Alike like decl decl') :
    Item.Alike like (.ofTypeDecl decl) (.ofTypeDecl decl') := by
  cases halike with
  | struct hdecl => exact .struct hdecl
  | interface hdecl => exact .interface hdecl
  | enum hdecl => exact .enum hdecl
  | sum hdecl => exact .sum hdecl
  | func hdecl => exact .decl (.func hdecl)
  | implements hdecl => exact .decl (.implements hdecl)
  | bad hnode => exact .decl (.bad hnode)

theorem File.Alike.ofItems {package package' name name' : Token} {items items' : List Item}
    (hheader : like.token package package' ∧ like.token name name' ∨
      (package = .absent ∧ name = .absent) ∧ package' = .absent ∧ name' = .absent)
    (hitems : List.Forall₂ (Item.Alike like) items items') :
    File.Alike like (.ofItems package name items) (.ofItems package' name' items') where
  header := hheader
  consts := by
    refine List.rel_filterMap (fun item item' hitem => ?_) hitems
    cases hitem with
    | const hstmt => exact .some hstmt
    | _ => exact .none
  decls := by
    refine List.rel_filterMap (fun item item' hitem => ?_) hitems
    cases hitem with
    | decl hdecl => exact .some hdecl
    | _ => exact .none
  structs := by
    refine List.rel_filterMap (fun item item' hitem => ?_) hitems
    cases hitem with
    | struct hdecl => exact .some hdecl
    | _ => exact .none
  interfaces := by
    refine List.rel_filterMap (fun item item' hitem => ?_) hitems
    cases hitem with
    | interface hdecl => exact .some hdecl
    | _ => exact .none
  enums := by
    refine List.rel_filterMap (fun item item' hitem => ?_) hitems
    cases hitem with
    | enum hdecl => exact .some hdecl
    | _ => exact .none
  sums := by
    refine List.rel_filterMap (fun item item' hitem => ?_) hitems
    cases hitem with
    | sum hdecl => exact .some hdecl
    | _ => exact .none
  implements := by
    refine List.rel_filterMap (fun item item' hitem => ?_) hitems
    cases hitem with
    | implements hdecl => exact .some hdecl
    | _ => exact .none

end Shared

end OriSyntax
