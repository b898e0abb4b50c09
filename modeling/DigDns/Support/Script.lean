import DigDns.Support.Text

/-!
# Scripts

A small part of JavaScript.  The first half reads a text: its line comments, its
string literals and the code between them.  The second half is the syntax of
functions that test and return strings, how they are written down, and what a
call of one gives.
-/

namespace Script

open Rust

/-! ## Comments and literals -/

/-- The characters that end a line, and with it a comment. -/
def isLineEnd (c : Char) : Bool := c = '\n' || c = '\r' || c.toNat = 0x2028 || c.toNat = 0x2029

/-- A run of code, the text of a line comment, or that of a string literal. -/
inductive Piece
  | code (text : Str)
  | comment (text : Str)
  | literal (text : Str)
deriving DecidableEq

/-- Where a reader stands: after a `/` in code, or after a `\` in a literal, the next
character decides. -/
inductive Mode
  | code
  | slash
  | comment
  | literal (quote : Char)
  | escape (quote : Char)
deriving DecidableEq

/-- Reads on in a mode, with the text of the present piece so far.  Texts with
other uses of `/`, with template literals or with an open string literal are not
read. -/
def piecesFrom : Mode → Str → Str → Option (List Piece)
  | .code, text, [] => some [.code text]
  | .comment, text, [] => some [.comment text]
  | .slash, _, [] => none
  | .literal _, _, [] => none
  | .escape _, _, [] => none
  | .code, text, c :: s =>
      if c = '/' then piecesFrom .slash text s
      else if c = '"' ∨ c = '\'' then (piecesFrom (.literal c) [] s).map (.code text :: ·)
      else if c.toNat = 0x60 then none
      else piecesFrom .code (text ++ [c]) s
  | .slash, text, c :: s =>
      if c = '/' then (piecesFrom .comment [] s).map (.code text :: ·) else none
  | .comment, text, c :: s =>
      if isLineEnd c then (piecesFrom .code [c] s).map (.comment text :: ·)
      else piecesFrom .comment (text ++ [c]) s
  | .literal quote, text, c :: s =>
      if c = quote then (piecesFrom .code [] s).map (.literal text :: ·)
      else if c = '\\' then piecesFrom (.escape quote) (text ++ [c]) s
      else if c = '\n' ∨ c = '\r' then none
      else piecesFrom (.literal quote) (text ++ [c]) s
  | .escape quote, text, c :: s => piecesFrom (.literal quote) (text ++ [c]) s

/-- The pieces of a text. -/
def pieces (s : Str) : Option (List Piece) := piecesFrom .code [] s

/-- Whether a piece is a comment or a literal. -/
def Piece.isMark : Piece → Bool
  | code _ => false
  | _ => true

/-- The comments and literals of a text, in order. -/
def marks (s : Str) : Option (List Piece) := (pieces s).map (List.filter Piece.isMark)

/-- A character that code can have outside comments and literals. -/
def IsCodeChar (c : Char) : Prop := c ≠ '/' ∧ c ≠ '"' ∧ c ≠ '\'' ∧ c.toNat ≠ 0x60

instance : DecidablePred IsCodeChar := fun _ => inferInstanceAs (Decidable (_ ∧ _))

/-- A character that stands for itself in a literal. -/
def IsLiteralChar (c : Char) : Prop := c ≠ '"' ∧ c ≠ '\\' ∧ c ≠ '\n' ∧ c ≠ '\r'

instance : DecidablePred IsLiteralChar := fun _ => inferInstanceAs (Decidable (_ ∧ _))

section Reading

variable {t : Str} (text s : Str)

theorem piecesFrom_code (h : ∀ c ∈ t, IsCodeChar c) :
    piecesFrom .code text (t ++ s) = piecesFrom .code (text ++ t) s := by
  induction t generalizing text with
  | nil => rw [List.append_nil, List.nil_append]
  | cons c t ih =>
      obtain ⟨hslash, hdouble, hsingle, htick⟩ := h c List.mem_cons_self
      have hquote : ¬ (c = '"' ∨ c = '\'') := fun hor => hor.elim hdouble hsingle
      rw [List.cons_append, piecesFrom, if_neg hslash, if_neg hquote, if_neg htick,
        ih _ fun d hd => h d (List.mem_cons_of_mem c hd), List.append_assoc, List.singleton_append]

theorem piecesFrom_slashes :
    piecesFrom .code text ('/' :: '/' :: s) = (piecesFrom .comment [] s).map (.code text :: ·) := by
  rw [piecesFrom, if_pos rfl, piecesFrom, if_pos rfl]

theorem piecesFrom_quote :
    piecesFrom .code text ('"' :: s) = (piecesFrom (.literal '"') [] s).map (.code text :: ·) := by
  rw [piecesFrom, if_neg (by decide), if_pos (Or.inl rfl)]

/-- A comment ends with its line. -/
theorem piecesFrom_comment (h : ∀ c ∈ t, isLineEnd c = false) :
    piecesFrom .comment text (t ++ '\n' :: s) =
      (piecesFrom .code ['\n'] s).map (.comment (text ++ t) :: ·) := by
  induction t generalizing text with
  | nil =>
      rw [List.append_nil, List.nil_append, piecesFrom]
      exact if_pos rfl
  | cons c t ih =>
      have hc : ¬ isLineEnd c = true := Bool.not_eq_true _ ▸ h c List.mem_cons_self
      rw [List.cons_append, piecesFrom, if_neg hc,
        ih _ fun d hd => h d (List.mem_cons_of_mem c hd), List.append_assoc, List.singleton_append]

/-- A literal ends with the next quote. -/
theorem piecesFrom_literal (h : ∀ c ∈ t, IsLiteralChar c) :
    piecesFrom (.literal '"') text (t ++ '"' :: s) =
      (piecesFrom .code [] s).map (.literal (text ++ t) :: ·) := by
  induction t generalizing text with
  | nil => rw [List.append_nil, List.nil_append, piecesFrom, if_pos rfl]
  | cons c t ih =>
      obtain ⟨hquote, hescape, hline, hreturn⟩ := h c List.mem_cons_self
      have hend : ¬ (c = '\n' ∨ c = '\r') := fun hor => hor.elim hline hreturn
      rw [List.cons_append, piecesFrom, if_neg hquote, if_neg hescape, if_neg hend,
        ih _ fun d hd => h d (List.mem_cons_of_mem c hd), List.append_assoc, List.singleton_append]

/-- The text of the present piece has no part in the comments and literals that
follow code. -/
theorem map_filter_piecesFrom (text' : Str) :
    (piecesFrom .code text s).map (List.filter Piece.isMark) =
        (piecesFrom .code text' s).map (List.filter Piece.isMark) ∧
      (piecesFrom .slash text s).map (List.filter Piece.isMark) =
        (piecesFrom .slash text' s).map (List.filter Piece.isMark) := by
  have hdrop : ∀ text : Str, List.filter Piece.isMark ∘ (.code text :: ·) =
      List.filter Piece.isMark := fun text => rfl
  induction s generalizing text text' with
  | nil => exact ⟨rfl, rfl⟩
  | cons c s ih =>
      constructor
      · simp only [piecesFrom]
        split_ifs
        · exact (ih text text').2
        · rw [Option.map_map, Option.map_map, hdrop, hdrop]
        · rfl
        · exact (ih _ _).1
      · simp only [piecesFrom]
        split_ifs
        · rw [Option.map_map, Option.map_map, hdrop, hdrop]
        · rfl

end Reading

/-- `HasMarks t ms`: in front of any text, `t` adds the comments and literals `ms`. -/
def HasMarks (t : Str) (ms : List Piece) : Prop :=
  ∀ s, marks (t ++ s) = (marks s).map (ms ++ ·)

theorem HasMarks.append {t t' : Str} {ms ms' : List Piece} (h : HasMarks t ms)
    (h' : HasMarks t' ms') : HasMarks (t ++ t') (ms ++ ms') := by
  intro s
  rw [List.append_assoc, h, h', Option.map_map]
  exact congrFun (congrArg Option.map (funext fun ps => (List.append_assoc ms ms' ps).symm)) _

theorem HasMarks.marks_eq {t : Str} {ms : List Piece} (h : HasMarks t ms) :
    marks t = some ms := by
  have hnil := h []
  rw [List.append_nil] at hnil
  rw [hnil]
  exact congrArg some (List.append_nil ms)

theorem hasMarks_code {t : Str} (h : ∀ c ∈ t, IsCodeChar c) : HasMarks t [] := by
  intro s
  rw [marks, pieces, piecesFrom_code _ _ h, (map_filter_piecesFrom _ s []).1]
  exact Option.map_id'.symm

/-- Code behind a text adds nothing. -/
theorem HasMarks.append_code {t s : Str} {ms : List Piece} (h : HasMarks t ms)
    (hcode : ∀ c ∈ s, IsCodeChar c) : HasMarks (t ++ s) ms := by
  have happend := h.append (hasMarks_code hcode)
  rwa [List.append_nil] at happend

theorem HasMarks.cons_code {c : Char} {t : Str} {ms : List Piece} (h : HasMarks t ms)
    (hcode : IsCodeChar c) : HasMarks (c :: t) ms :=
  (hasMarks_code (t := [c]) (by simpa using hcode)).append h

theorem hasMarks_literal {t : Str} (h : ∀ c ∈ t, IsLiteralChar c) :
    HasMarks ('"' :: t ++ ['"']) [.literal t] := by
  intro s
  rw [List.append_assoc, List.cons_append, List.singleton_append, marks, pieces, piecesFrom_quote,
    piecesFrom_literal _ _ h, marks, pieces, Option.map_map, Option.map_map, Option.map_map]
  rfl

/-- A comment line. -/
theorem hasMarks_comment {t : Str} (h : ∀ c ∈ t, isLineEnd c = false) :
    HasMarks ('/' :: '/' :: t ++ ['\n']) [.comment t] := by
  intro s
  rw [List.append_assoc, List.cons_append, List.cons_append, List.singleton_append, marks, pieces,
    piecesFrom_slashes, piecesFrom_comment _ _ h, Option.map_map, Option.map_map, marks, pieces,
    (map_filter_piecesFrom [] s ['\n']).1, Option.map_map]
  rfl

/-! ## Functions -/

/-- An expression: `x`, `"s"`, `e.m()`, `f(a, b)`, `a === b` or `a || b`. -/
inductive Expr
  | name (x : Str)
  | literal (s : Str)
  | method (e : Expr) (m : Str)
  | call (f : Str) (a b : Expr)
  | same (a b : Expr)
  | either (a b : Expr)
deriving DecidableEq

/-- A statement: `x = e;`, `if (c) { return e; }` or `return e;`. -/
inductive Stmt
  | assign (x : Str) (e : Expr)
  | returnWhen (c e : Expr)
  | ret (e : Expr)
deriving DecidableEq

/-- A function declaration. -/
structure Function where
  name : Str
  params : List Str
  body : List Stmt

def Expr.render : Expr → Str
  | name x => x
  | literal s => '"' :: s ++ "\"".toList
  | method e m => e.render ++ '.' :: m ++ "()".toList
  | call f a b => f ++ '(' :: a.render ++ ", ".toList ++ b.render ++ ")".toList
  | same a b => a.render ++ " === ".toList ++ b.render
  | either a b => a.render ++ " || ".toList ++ b.render

def Stmt.render : Stmt → Str
  | assign x e => "  ".toList ++ x ++ " = ".toList ++ e.render ++ ";\n".toList
  | returnWhen c e =>
      "  if (".toList ++ c.render ++ ") \x7b\n    return ".toList ++ e.render ++
        ";\n  \x7d\n".toList
  | ret e => "  return ".toList ++ e.render ++ ";\n".toList

/-- A function as it is written down. -/
def Function.render (f : Function) : Str :=
  "function ".toList ++ f.name ++ '(' :: List.intercalate ", ".toList f.params ++
    ") \x7b\n".toList ++ f.body.flatMap Stmt.render ++ "\x7d\n".toList

/-- The literals of an expression. -/
def Expr.literals : Expr → List Str
  | name _ => []
  | literal s => [s]
  | method e _ => e.literals
  | call _ a b => a.literals ++ b.literals
  | same a b => a.literals ++ b.literals
  | either a b => a.literals ++ b.literals

def Stmt.literals : Stmt → List Str
  | assign _ e => e.literals
  | returnWhen c e => c.literals ++ e.literals
  | ret e => e.literals

/-- Names that are code, and literals that need no escapes. -/
def Expr.IsPlain : Expr → Prop
  | name x => ∀ c ∈ x, IsCodeChar c
  | literal s => ∀ c ∈ s, IsLiteralChar c
  | method e m => e.IsPlain ∧ ∀ c ∈ m, IsCodeChar c
  | call f a b => (∀ c ∈ f, IsCodeChar c) ∧ a.IsPlain ∧ b.IsPlain
  | same a b => a.IsPlain ∧ b.IsPlain
  | either a b => a.IsPlain ∧ b.IsPlain

def Stmt.IsPlain : Stmt → Prop
  | assign x e => (∀ c ∈ x, IsCodeChar c) ∧ e.IsPlain
  | returnWhen c e => c.IsPlain ∧ e.IsPlain
  | ret e => e.IsPlain

section Rendering

variable (e a b c : Expr) (f m s x : Str)

@[simp] theorem Expr.render_name : (name x).render = x := rfl

@[simp] theorem Expr.render_literal : (literal s).render = '"' :: s ++ "\"".toList := rfl

@[simp] theorem Expr.render_method :
    (method e m).render = e.render ++ '.' :: m ++ "()".toList := rfl

@[simp] theorem Expr.render_call :
    (call f a b).render = f ++ '(' :: a.render ++ ", ".toList ++ b.render ++ ")".toList := rfl

@[simp] theorem Expr.render_same :
    (same a b).render = a.render ++ " === ".toList ++ b.render := rfl

@[simp] theorem Expr.render_either :
    (either a b).render = a.render ++ " || ".toList ++ b.render := rfl

@[simp] theorem Stmt.render_assign :
    (assign x e).render = "  ".toList ++ x ++ " = ".toList ++ e.render ++ ";\n".toList := rfl

@[simp] theorem Stmt.render_returnWhen :
    (returnWhen c e).render =
      "  if (".toList ++ c.render ++ ") \x7b\n    return ".toList ++ e.render ++
        ";\n  \x7d\n".toList := rfl

@[simp] theorem Stmt.render_ret :
    (ret e).render = "  return ".toList ++ e.render ++ ";\n".toList := rfl

end Rendering

/-- A plain expression reads back as its literals. -/
theorem Expr.hasMarks_render {e : Expr} (he : e.IsPlain) :
    HasMarks e.render (e.literals.map .literal) := by
  induction e with
  | name x => exact hasMarks_code he
  | literal t =>
      rw [render_literal]
      exact hasMarks_literal he
  | method e m ih =>
      rw [render_method]
      have hname : HasMarks ('.' :: m) [] := (hasMarks_code he.2).cons_code (by decide)
      have h := ((ih he.1).append hname).append_code (s := "()".toList) (by decide)
      rwa [List.append_nil] at h
  | call f a b iha ihb =>
      obtain ⟨hf, ha, hb⟩ := he
      rw [render_call, literals, List.map_append]
      have hargs : HasMarks ('(' :: a.render) (a.literals.map .literal) :=
        (iha ha).cons_code (by decide)
      exact ((((hasMarks_code hf).append hargs).append_code (by decide)).append
        (ihb hb)).append_code (by decide)
  | same a b iha ihb =>
      rw [render_same, literals, List.map_append]
      exact ((iha he.1).append_code (by decide)).append (ihb he.2)
  | either a b iha ihb =>
      rw [render_either, literals, List.map_append]
      exact ((iha he.1).append_code (by decide)).append (ihb he.2)

theorem Stmt.hasMarks_render {t : Stmt} (ht : t.IsPlain) :
    HasMarks t.render (t.literals.map .literal) := by
  cases t with
  | assign x e =>
      rw [render_assign]
      have hx : HasMarks ("  ".toList ++ x ++ " = ".toList) [] :=
        ((hasMarks_code (t := "  ".toList) (by decide)).append_code ht.1).append_code (by decide)
      exact (hx.append (Expr.hasMarks_render ht.2)).append_code (by decide)
  | returnWhen c e =>
      rw [render_returnWhen, literals, List.map_append]
      have hif : HasMarks "  if (".toList [] := hasMarks_code (by decide)
      exact (((hif.append (Expr.hasMarks_render ht.1)).append_code (by decide)).append
        (Expr.hasMarks_render ht.2)).append_code (by decide)
  | ret e =>
      rw [render_ret]
      have hreturn : HasMarks "  return ".toList [] := hasMarks_code (by decide)
      exact (hreturn.append (Expr.hasMarks_render ht)).append_code (by decide)

/-- What holds of every character of a separator and of some words holds of every
character of the words with the separator between them. -/
theorem forall_mem_intercalate {P : Char → Prop} {sep : Str} {words : List Str}
    (hsep : ∀ c ∈ sep, P c) (hwords : ∀ x ∈ words, ∀ c ∈ x, P c) :
    ∀ c ∈ List.intercalate sep words, P c := by
  intro c hc
  induction words with
  | nil => cases hc
  | cons x words ih =>
      have hrest : ∀ y ∈ words, ∀ c ∈ y, P c := fun y hy => hwords y (List.mem_cons_of_mem x hy)
      cases words with
      | nil => exact hwords x List.mem_cons_self c (by simpa using hc)
      | cons y words =>
          rw [List.intercalate_cons_cons, List.append_assoc] at hc
          rcases List.mem_append.mp hc with hx | hc
          · exact hwords x List.mem_cons_self c hx
          rcases List.mem_append.mp hc with hmem | hmem
          · exact hsep c hmem
          · exact ih hrest hmem

/-- A plain function reads back as the literals of its body. -/
theorem Function.hasMarks_render {f : Function} (hname : ∀ c ∈ f.name, IsCodeChar c)
    (hparams : ∀ x ∈ f.params, ∀ c ∈ x, IsCodeChar c) (hbody : ∀ t ∈ f.body, t.IsPlain) :
    HasMarks f.render ((f.body.flatMap Stmt.literals).map .literal) := by
  have hstmts : ∀ body : List Stmt, (∀ t ∈ body, t.IsPlain) →
      HasMarks (body.flatMap Stmt.render) ((body.flatMap Stmt.literals).map .literal) := by
    intro body hplain
    induction body with
    | nil => exact hasMarks_code nofun
    | cons t body ih =>
        rw [List.flatMap_cons, List.flatMap_cons, List.map_append]
        exact (Stmt.hasMarks_render (hplain t List.mem_cons_self)).append
          (ih fun u hu => hplain u (List.mem_cons_of_mem t hu))
  have hhead : HasMarks ("function ".toList ++ f.name ++
      '(' :: List.intercalate ", ".toList f.params ++ ") \x7b\n".toList) [] := by
    have hlist : HasMarks ('(' :: List.intercalate ", ".toList f.params) [] :=
      (hasMarks_code (forall_mem_intercalate (by decide) hparams)).cons_code (by decide)
    have hfunction : HasMarks "function ".toList [] := hasMarks_code (by decide)
    exact ((hfunction.append_code hname).append hlist).append_code (by decide)
  unfold Function.render
  exact (hhead.append (hstmts f.body hbody)).append_code (by decide)

inductive Value
  | undefined
  | string (s : Str)
  | bool (b : Bool)
deriving DecidableEq

def Value.truthy : Value → Bool
  | undefined => false
  | string s => s ≠ []
  | bool b => b

/-- The methods and global functions that a script finds.  A call gives nothing when
it throws. -/
structure Runtime where
  method : Value → Str → Option Value
  call : Str → Value → Value → Option Value

/-- The variables of a call. -/
abbrev Scope := Str → Option Value

def Expr.eval (runtime : Runtime) (scope : Scope) : Expr → Option Value
  | name x => scope x
  | literal s => some (.string s)
  | method e m => do runtime.method (← e.eval runtime scope) m
  | call f a b => do runtime.call f (← a.eval runtime scope) (← b.eval runtime scope)
  | same a b => do return .bool ((← a.eval runtime scope) = (← b.eval runtime scope))
  | either a b => do
      let left ← a.eval runtime scope
      if left.truthy then return left else b.eval runtime scope

/-- Runs the statements of a body. -/
def runBody (runtime : Runtime) : Scope → List Stmt → Option Value
  | _, [] => some .undefined
  | scope, .assign x e :: body => do
      let value ← e.eval runtime scope
      runBody runtime (fun y => if y = x then some value else scope y) body
  | scope, .returnWhen c e :: body => do
      let test ← c.eval runtime scope
      if test.truthy then e.eval runtime scope else runBody runtime scope body
  | scope, .ret e :: _ => e.eval runtime scope

section Running

variable (runtime : Runtime) (scope : Scope) (body : List Stmt)

theorem Expr.eval_method {e : Expr} {value : Value} (m : Str)
    (he : e.eval runtime scope = some value) :
    (method e m).eval runtime scope = runtime.method value m := by
  rw [eval, he]
  rfl

theorem Expr.eval_call {a b : Expr} {left right : Value} (f : Str)
    (ha : a.eval runtime scope = some left) (hb : b.eval runtime scope = some right) :
    (call f a b).eval runtime scope = runtime.call f left right := by
  rw [eval, ha, hb]
  rfl

theorem Expr.eval_same {a b : Expr} {left right : Value}
    (ha : a.eval runtime scope = some left) (hb : b.eval runtime scope = some right) :
    (same a b).eval runtime scope = some (.bool (left = right)) := by
  rw [eval, ha, hb]
  rfl

theorem Expr.eval_either {a b : Expr} {left right : Bool}
    (ha : a.eval runtime scope = some (.bool left))
    (hb : b.eval runtime scope = some (.bool right)) :
    (either a b).eval runtime scope = some (.bool (left || right)) := by
  rw [eval, ha, hb]
  cases left <;> rfl

theorem runBody_assign {e : Expr} {value : Value} (x : Str)
    (he : e.eval runtime scope = some value) :
    runBody runtime scope (.assign x e :: body) =
      runBody runtime (fun y => if y = x then some value else scope y) body := by
  rw [runBody, he]
  rfl

theorem runBody_returnWhen {c : Expr} {test : Bool} (e : Expr)
    (hc : c.eval runtime scope = some (.bool test)) :
    runBody runtime scope (.returnWhen c e :: body) =
      if test then e.eval runtime scope else runBody runtime scope body := by
  rw [runBody, hc]
  rfl

end Running

/-- Calls a function. -/
def Function.run (f : Function) (runtime : Runtime) (args : List Value) : Option Value :=
  runBody runtime (fun x => (f.params.zip args).lookup x) f.body

end Script
