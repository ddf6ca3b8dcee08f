import LessonCheck.Form.OutputCall
import LessonCheck.Proofs.Program.Kinds

/-!
The places of a program. Every check looks at a token together with the one before it and the ones
behind it, and in a program only few such surroundings are met. `Place` lists them; `placed` is the
induction over the program that finds one of them at every token, whatever stands behind the
program. A check is silent on all programs if it is silent at each of these places.
-/

namespace LessonCheck

open Vocabulary

namespace Program

/-- The parenthesis of a print call, with its semicolon. -/
inductive Arguments (es : List Operand) : Tokens → Prop
  | mk {opener closer semicolon : Token} {inside rest : Tokens} :
      opener.kind = .lparen → inside.map Token.piece = sum es → closer.kind = .rparen →
        semicolon.kind = .semicolon →
        Arguments es (opener :: (inside ++ closer :: semicolon :: rest))

/-- The header of a loop behind its keyword, with the brace that opens the body. -/
inductive Header (h : LoopHead) : Tokens → Prop
  | mk {opener first second closer brace : Token} {init condition change rest : Tokens} :
      opener.kind = .lparen → init.map Token.piece = h.initPieces → first.kind = .semicolon →
        condition.map Token.piece = h.conditionPieces → second.kind = .semicolon →
        change.map Token.piece = h.changePieces → closer.kind = .rparen → brace.kind = .lbrace →
        Header h (opener :: (init ++ first :: (condition ++ second :: (change ++
          closer :: brace :: rest))))

/-- What a token of a program can stand between. -/
inductive Place (Γ : Signature) : Option Token → Token → Tokens → Prop
  | mark {before : Option Token} {t : Token} {rest : Tokens} :
      t.kind ≠ .identifier → t.kind ≠ .keyword → Place Γ before t rest
  /-- A value, or a name that is not given one. -/
  | operand {before : Option Token} {t next : Token} {rest : Tokens} (v : Operand) :
      t.piece = v.piece → v.Known Γ → next.kind ≠ .dot → next.isOperator "=" = false →
        Place Γ before t (next :: rest)
  /-- A name that is given a value. -/
  | target {before : Option Token} {name equals value semicolon : Token} {rest : Tokens}
      {x : VariableName} {T : VariableType} (v : Operand) :
      name.isName x.text = true → (x, T) ∈ Γ → equals.isOperator "=" = true →
        value.piece = v.piece → v.GoesInto Γ T → semicolon.kind = .semicolon →
        Place Γ before name (equals :: value :: semicolon :: rest)
  | declaring {before : Option Token} {type name semicolon : Token} {rest : Tokens}
      {x : VariableName} {T : VariableType} :
      type.typeNamed? = some T → name.isName x.text = true → (x, T) ∈ Γ →
        semicolon.kind = .semicolon → Place Γ before type (name :: semicolon :: rest)
  | defining {before : Option Token} {type name equals value semicolon : Token} {rest : Tokens}
      {x : VariableName} {T : VariableType} (v : Operand) :
      type.typeNamed? = some T → name.isName x.text = true → (x, T) ∈ Γ →
        equals.isOperator "=" = true → value.piece = v.piece → v.GoesInto Γ T →
        semicolon.kind = .semicolon →
        Place Γ before type (name :: equals :: value :: semicolon :: rest)
  | receiver {before : Option Token} {name dot method : Token} {rest : Tokens}
      {x : VariableName} :
      name.isName x.text = true → (x, .string) ∈ Γ → dot.kind = .dot →
        method.kind = .identifier → isStringMethod method.lexeme = true →
        Place Γ before name (dot :: method :: rest)
  /-- A method behind a dot. -/
  | member {dot method opener : Token} {rest : Tokens} :
      dot.kind = .dot → method.kind = .identifier → opener.kind = .lparen →
        Place Γ (some dot) method (opener :: rest)
  /-- The name in the middle of the path to standard output. -/
  | out {first out second : Token} {rest : Tokens} :
      first.kind = .dot → out.isName "out" = true → second.kind = .dot →
        Place Γ (some first) out (second :: rest)
  | print {before : Option Token} {method : Token} {rest : Tokens} (es : List Operand) :
      before.any (·.kind = .dot) = false → OutputCall.isMethod method = true →
        Arguments es rest → Place Γ before method rest
  | system {before : Option Token} {system first out second method : Token} {rest : Tokens}
      (es : List Operand) :
      before.any (·.kind = .dot) = false → system.isName "System" = true →
        first.kind = .dot → out.isName "out" = true → second.kind = .dot →
        OutputCall.isMethod method = true → Arguments es rest →
        Place Γ before system (first :: out :: second :: method :: rest)
  | loop {before : Option Token} {keyword : Token} {rest : Tokens} (h : LoopHead) :
      keyword.isKeyword "for" = true → Header h rest → h.WellTyped Γ → Place Γ before keyword rest

theorem Place.of_piece {Γ : Signature} {before : Option Token} {t : Token} {rest : Tokens}
    {p : Piece} (h : t.piece = p) (hname : p.kind ≠ .identifier) (hkey : p.kind ≠ .keyword) :
    Place Γ before t rest := by
  have hkind := Token.kind_of_piece h
  exact .mark (hkind ▸ hname) (hkind ▸ hkey)

/-- Every token has its place. -/
def Placed (Γ : Signature) : Option Token → Tokens → Prop
  | _, [] => True
  | before, t :: rest => Place Γ before t rest ∧ Placed Γ (some t) rest

/-- Every token has its place, if the tokens do not stand behind a dot. -/
def PlacedAnywhere (Γ : Signature) (ts : Tokens) : Prop :=
  ∀ before : Option Token, before.any (·.kind = .dot) = false → Placed Γ before ts

/-- A pass that is silent at every place is silent on tokens that have their places. -/
theorem Placed.surveyFrom_eq_nil {Γ : Signature} {α : Type}
    {look : Option Token → Token → Tokens → List α}
    (hlook : ∀ {before t rest}, Place Γ before t rest → look before t rest = [])
    {before : Option Token} {ts : Tokens} (h : Placed Γ before ts) :
    Tokens.surveyFrom look before ts = [] := by
  induction ts generalizing before with
  | nil => rfl
  | cons t rest ih => rw [Tokens.surveyFrom_cons, hlook h.1, ih h.2, List.append_nil]

/-- The tokens behind some that have their places have theirs. -/
theorem Placed.of_append {Γ : Signature} {before : Option Token} {front ts : Tokens} {t : Token}
    (h : Placed Γ before (front ++ t :: ts)) : Placed Γ (some t) ts := by
  induction front generalizing before with
  | nil => exact h.2
  | cons u front ih => exact ih h.2

section
variable {Γ : Signature} {before : Option Token} {t : Token} {ts rest : Tokens}

/-! ### Stretches that statements and loops share -/

/-- A mark that ends a statement, a part of a header or the arguments of a call. -/
def Closes (t : Token) : Prop := t.kind = .semicolon ∨ t.kind = .rparen

theorem Closes.placed (h : Closes t) (hrest : Placed Γ (some t) rest) :
    Placed Γ before (t :: rest) := by
  refine ⟨?_, hrest⟩
  rcases h with h | h <;> exact .mark (by simp [h]) (by simp [h])

/-- An operand that stands last. -/
theorem placed_last {v : Operand} (ht : t.piece = v.piece) (hv : v.Known Γ) {next : Token}
    (hnext : Closes next) (hrest : Placed Γ (some next) rest) :
    Placed Γ before (t :: next :: rest) := by
  refine ⟨.operand v ht hv ?_ ?_, hnext.placed hrest⟩
  · rcases hnext with h | h <;> simp [h]
  · apply Token.isOperator_of_kind
    rcases hnext with h | h <;> simp [h]

/-- An operand with an operator behind it that gives it no value. -/
theorem placed_operand {v : Operand} (ht : t.piece = v.piece) (hv : v.Known Γ) {sign : Token}
    {w : String} (hsign : sign.piece = .operator w) (hw : (w == "=") = false)
    (hrest : Placed Γ (some sign) rest) : Placed Γ before (t :: sign :: rest) := by
  refine ⟨.operand v ht hv ?_ ?_, .of_piece hsign nofun nofun, hrest⟩
  · simp [Token.kind_of_piece hsign]
  · rw [Token.isOperator_of_piece hsign, hw]

/-- A variable and the value that it is given. -/
theorem placed_assigned {x : VariableName} {T : VariableType} {v : Operand} (hx : (x, T) ∈ Γ)
    (hv : v.GoesInto Γ T) (hts : ts.map Token.piece = [.name x.text, .operator "=", v.piece])
    {semicolon : Token} (hsemicolon : semicolon.kind = .semicolon)
    (hrest : Placed Γ (some semicolon) rest) : Placed Γ before (ts ++ semicolon :: rest) := by
  simp only [List.map_eq_cons_iff, List.map_eq_nil_iff] at hts
  obtain ⟨name, _, rfl, hname, equals, _, rfl, hequals, value, _, rfl, hvalue, rfl⟩ := hts
  have heq : equals.isOperator "=" = true := Token.isOperator_of_piece hequals _
  exact ⟨.target v (Token.isName_of_piece hname) hx heq hvalue hv hsemicolon,
    .of_piece hequals nofun nofun, placed_last hvalue hv.known (.inl hsemicolon) hrest⟩

/-- A declaration with a first value. -/
theorem placed_defined {x : VariableName} {T : VariableType} {v : Operand} (hx : (x, T) ∈ Γ)
    (hv : v.GoesInto Γ T)
    (hts : ts.map Token.piece = [.keyword T.word, .name x.text, .operator "=", v.piece])
    {semicolon : Token} (hsemicolon : semicolon.kind = .semicolon)
    (hrest : Placed Γ (some semicolon) rest) : Placed Γ before (ts ++ semicolon :: rest) := by
  obtain ⟨type, others, rfl, htype, hothers⟩ := List.map_eq_cons_iff.mp hts
  have hassigned : Placed Γ (some type) (others ++ semicolon :: rest) :=
    placed_assigned hx hv hothers hsemicolon hrest
  simp only [List.map_eq_cons_iff, List.map_eq_nil_iff] at hothers
  obtain ⟨name, _, rfl, hname, equals, _, rfl, hequals, value, _, rfl, hvalue, rfl⟩ := hothers
  have heq : equals.isOperator "=" = true := Token.isOperator_of_piece hequals _
  exact ⟨.defining v (Token.typeNamed?_of_piece htype) (Token.isName_of_piece hname) hx heq hvalue
    hv hsemicolon, hassigned⟩

/-- The tokens of a sum stand at places of operands and marks. -/
theorem placed_sum {es : List Operand} (hes : ∀ e ∈ es, e.Known Γ)
    (hts : ts.map Token.piece = sum es) {closer : Token} (hcloser : Closes closer)
    (hrest : Placed Γ (some closer) rest) : Placed Γ before (ts ++ closer :: rest) := by
  fun_induction sum es generalizing ts before with
  | case1 =>
      obtain rfl := List.map_eq_nil_iff.mp hts
      exact hcloser.placed hrest
  | case2 e =>
      obtain ⟨t, tail, rfl, ht, htail⟩ := List.map_eq_cons_iff.mp hts
      obtain rfl := List.map_eq_nil_iff.mp htail
      exact placed_last ht (hes e List.mem_cons_self) hcloser hrest
  | case3 e es _ ih =>
      obtain ⟨t, tail, rfl, ht, htail⟩ := List.map_eq_cons_iff.mp hts
      obtain ⟨plus, others, rfl, hplus, hothers⟩ := List.map_eq_cons_iff.mp htail
      apply placed_operand ht (hes e List.mem_cons_self) hplus rfl
      exact ih (fun f hf => hes f (List.mem_cons_of_mem e hf)) hothers

/-! ### One statement -/

/-- A statement ends with its semicolon. -/
theorem exists_semicolon (ps : List Piece) (hts : ts.map Token.piece = ps ++ [.semicolon]) :
    ∃ front semicolon, ts = front ++ [semicolon] ∧ front.map Token.piece = ps ∧
      semicolon.kind = .semicolon := by
  obtain ⟨front, last, rfl, hfront, hlast⟩ := List.map_eq_append_iff.mp hts
  simp only [List.map_eq_cons_iff, List.map_eq_nil_iff] at hlast
  obtain ⟨semicolon, _, rfl, hsemicolon, rfl⟩ := hlast
  exact ⟨front, semicolon, rfl, hfront, Token.kind_of_piece hsemicolon⟩

theorem PlacedAnywhere.behind (h : PlacedAnywhere Γ rest) (ht : t.kind = .semicolon) :
    Placed Γ (some t) rest :=
  h _ (by simp [ht])

/-- The parenthesis of a print call and what follows it. -/
theorem placed_arguments {es : List Operand} (hes : ∀ e ∈ es, e.Known Γ)
    (hts : ts.map Token.piece = .lparen :: (sum es ++ [.rparen, .semicolon]))
    (hrest : PlacedAnywhere Γ rest) : Arguments es (ts ++ rest) ∧ Placed Γ before (ts ++ rest) := by
  obtain ⟨opener, tail, rfl, hopener, htail⟩ := List.map_eq_cons_iff.mp hts
  obtain ⟨inside, last, rfl, hinside, hlast⟩ := List.map_eq_append_iff.mp htail
  simp only [List.map_eq_cons_iff, List.map_eq_nil_iff] at hlast
  obtain ⟨closer, _, rfl, hcloser, semicolon, _, rfl, hsemicolon, rfl⟩ := hlast
  have hclose : closer.kind = .rparen := Token.kind_of_piece hcloser
  have hend : semicolon.kind = .semicolon := Token.kind_of_piece hsemicolon
  have hinsides : Placed Γ (some opener) (inside ++ closer :: semicolon :: rest) :=
    placed_sum hes hinside (.inr hclose) (Closes.placed (.inl hend) (hrest.behind hend))
  rw [List.cons_append, List.append_assoc]
  refine ⟨?_, .of_piece hopener nofun nofun, hinsides⟩
  exact .mk (Token.kind_of_piece hopener) hinside hclose hend

theorem isMethod_of_piece {t : Token} {line : Bool} (h : t.piece = .name (printMethod line)) :
    OutputCall.isMethod t = true := by
  have hname := Token.isName_iff.mp (Token.isName_of_piece h)
  cases line <;> simp [OutputCall.isMethod, hname, printMethod, isPrintMethod]

/-- A print call stands at its places, with the path in front or without it. -/
theorem placed_print {qualified line : Bool} {es : List Operand} (hes : ∀ e ∈ es, e.Known Γ)
    (hts : ts.map Token.piece = (Statement.print qualified line es).pieces)
    (hbefore : before.any (·.kind = .dot) = false) (hrest : PlacedAnywhere Γ rest) :
    Placed Γ before (ts ++ rest) := by
  obtain ⟨path, call, rfl, hpath, hcall⟩ := List.map_eq_append_iff.mp hts
  obtain ⟨method, tail, rfl, hmethod, htail⟩ := List.map_eq_cons_iff.mp hcall
  have hprint := isMethod_of_piece hmethod
  have harguments : Arguments es (tail ++ rest) ∧ Placed Γ (some method) (tail ++ rest) :=
    placed_arguments hes htail hrest
  cases qualified with
  | false =>
      obtain rfl := List.map_eq_nil_iff.mp hpath
      exact ⟨.print es hbefore hprint harguments.1, harguments.2⟩
  | true =>
      -- Only the first token of the path begins the call; the others stand behind a dot or are one.
      simp only [outputPath, if_true, List.map_eq_cons_iff, List.map_eq_nil_iff] at hpath
      obtain ⟨system, _, rfl, hsystem, first, _, rfl, hfirst, out, _, rfl, hout, second, _, rfl,
        hsecond, rfl⟩ := hpath
      have hdots := And.intro (Token.kind_of_piece hfirst) (Token.kind_of_piece hsecond)
      refine ⟨.system es hbefore (Token.isName_of_piece hsystem) hdots.1
        (Token.isName_of_piece hout) hdots.2 hprint harguments.1, ?_⟩
      refine ⟨.of_piece hfirst nofun nofun, .out hdots.1 (Token.isName_of_piece hout) hdots.2,
        .of_piece hsecond nofun nofun, ?_⟩
      obtain ⟨opener, others, rfl, hopener, -⟩ := List.map_eq_cons_iff.mp htail
      exact ⟨.member hdots.2 (Token.kind_of_piece hmethod) (Token.kind_of_piece hopener),
        harguments.2⟩

/-- A call of a method of a string. -/
theorem placed_call {x : VariableName} (hx : (x, .string) ∈ Γ) {m : MethodName}
    (hts : ts.map Token.piece = (Statement.call x m).pieces) (hrest : PlacedAnywhere Γ rest) :
    Placed Γ before (ts ++ rest) := by
  simp only [Statement.pieces, List.map_eq_cons_iff, List.map_eq_nil_iff] at hts
  obtain ⟨name, _, rfl, hname, dot, _, rfl, hdot, method, _, rfl, hmethod, opener, _, rfl,
    hopener, closer, _, rfl, hcloser, semicolon, _, rfl, hsemicolon, rfl⟩ := hts
  have hd : dot.kind = .dot := Token.kind_of_piece hdot
  have hend : semicolon.kind = .semicolon := Token.kind_of_piece hsemicolon
  obtain ⟨hkind, hlexeme⟩ := Token.isName_iff.mp (Token.isName_of_piece hmethod)
  have hm : isStringMethod method.lexeme = true := by
    rw [hlexeme]
    exact m.property
  exact ⟨.receiver (Token.isName_of_piece hname) hx hd hkind hm, .of_piece hdot nofun nofun,
    .member hd hkind (Token.kind_of_piece hopener), .of_piece hopener nofun nofun,
    .of_piece hcloser nofun nofun, Closes.placed (.inl hend) (hrest.behind hend)⟩

theorem Statement.placed {s : Statement} (hs : s.WellTyped Γ) (hdeclared : s.declared ⊆ Γ)
    (hts : ts.map Token.piece = s.pieces) (hrest : PlacedAnywhere Γ rest) :
    PlacedAnywhere Γ (ts ++ rest) := by
  intro before hbefore
  cases s with
  | declare T x =>
      simp only [Statement.pieces, List.map_eq_cons_iff, List.map_eq_nil_iff] at hts
      obtain ⟨type, _, rfl, htype, name, _, rfl, hname, semicolon, _, rfl, hsemicolon, rfl⟩ := hts
      have hx : (x, T) ∈ Γ := hdeclared List.mem_cons_self
      have hend : semicolon.kind = .semicolon := Token.kind_of_piece hsemicolon
      have hplace := Token.isName_of_piece hname
      refine ⟨.declaring (Token.typeNamed?_of_piece htype) hplace hx hend, ?_⟩
      exact placed_last (v := .var x) hname ⟨T, hx⟩ (.inl hend) (hrest.behind hend)
  | define T x v =>
      have hx : (x, T) ∈ Γ := hdeclared List.mem_cons_self
      obtain ⟨front, semicolon, rfl, hfront, hend⟩ := exists_semicolon
        [.keyword T.word, .name x.text, .operator "=", v.piece] hts
      rw [List.append_assoc]
      exact placed_defined hx hs hfront hend (hrest.behind hend)
  | assign x v =>
      obtain ⟨T, hx, hv⟩ := hs
      obtain ⟨front, semicolon, rfl, hfront, hend⟩ := exists_semicolon
        [.name x.text, .operator "=", v.piece] hts
      rw [List.append_assoc]
      exact placed_assigned hx hv hfront hend (hrest.behind hend)
  | step x d =>
      simp only [Statement.pieces, List.map_eq_cons_iff, List.map_eq_nil_iff] at hts
      obtain ⟨name, _, rfl, hname, sign, _, rfl, hsign, semicolon, _, rfl, hsemicolon, rfl⟩ := hts
      have hend : semicolon.kind = .semicolon := Token.kind_of_piece hsemicolon
      have hclosing : Placed Γ (some sign) (semicolon :: rest) :=
        Closes.placed (.inl hend) (hrest.behind hend)
      exact placed_operand (v := .var x) hname hs hsign (by cases d <;> rfl) hclosing
  | call x m => exact placed_call hs hts hrest
  | print qualified line es => exact placed_print hs hts hbefore hrest

/-! ### Loops -/

namespace LoopHead

variable {h : LoopHead} {T : VariableType}

theorem placed_init (hcounter : (h.counter, T) ∈ Γ) (hinit : h.init.WellTyped T)
    (hts : ts.map Token.piece = h.initPieces) {semicolon : Token}
    (hsemicolon : semicolon.kind = .semicolon) (hrest : Placed Γ (some semicolon) rest) :
    Placed Γ before (ts ++ semicolon :: rest) := by
  unfold initPieces at hts
  unfold LoopInit.WellTyped at hinit
  cases hi : h.init with
  | declare S c =>
      rw [hi] at hinit hts
      obtain ⟨rfl, hc⟩ := hinit
      exact placed_defined (v := .literal c) hcounter hc hts hsemicolon hrest
  | assign c =>
      rw [hi] at hinit hts
      exact placed_assigned (v := .literal c) hcounter hinit hts hsemicolon hrest
  | use =>
      simp only [hi, List.map_eq_cons_iff, List.map_eq_nil_iff] at hts
      obtain ⟨name, _, rfl, hname, rfl⟩ := hts
      exact placed_last (v := .var h.counter) hname ⟨T, hcounter⟩ (.inl hsemicolon) hrest

theorem placed_condition (hcounter : (h.counter, T) ∈ Γ) (hbound : h.bound.Known Γ)
    (hts : ts.map Token.piece = h.conditionPieces) {semicolon : Token}
    (hsemicolon : semicolon.kind = .semicolon) (hrest : Placed Γ (some semicolon) rest) :
    Placed Γ before (ts ++ semicolon :: rest) := by
  simp only [conditionPieces, List.map_eq_cons_iff, List.map_eq_nil_iff] at hts
  obtain ⟨name, _, rfl, hname, sign, _, rfl, hsign, value, _, rfl, hvalue, rfl⟩ := hts
  have hassigns : (h.relation.symbol == "=") = false := by cases h.relation <;> rfl
  apply placed_operand (v := .var h.counter) hname ⟨T, hcounter⟩ hsign hassigns
  exact placed_last hvalue hbound (.inl hsemicolon) hrest

theorem placed_change (hcounter : (h.counter, T) ∈ Γ) (hchange : h.change.WellTyped Γ)
    (hts : ts.map Token.piece = h.changePieces) {closer : Token}
    (hcloser : closer.kind = .rparen) (hrest : Placed Γ (some closer) rest) :
    Placed Γ before (ts ++ closer :: rest) := by
  unfold changePieces at hts
  unfold LoopChange.WellTyped at hchange
  cases hi : h.change with
  | step d =>
      simp only [hi, List.map_eq_cons_iff, List.map_eq_nil_iff] at hts
      obtain ⟨name, _, rfl, hname, sign, _, rfl, hsign, rfl⟩ := hts
      apply placed_operand (v := .var h.counter) hname ⟨T, hcounter⟩ hsign (by cases d <;> rfl)
      exact Closes.placed (.inr hcloser) hrest
  | stepBy d v =>
      simp only [hi] at hchange
      simp only [hi, List.map_eq_cons_iff, List.map_eq_nil_iff] at hts
      obtain ⟨name, _, rfl, hname, sign, _, rfl, hsign, value, _, rfl, hvalue, rfl⟩ := hts
      apply placed_operand (v := .var h.counter) hname ⟨T, hcounter⟩ hsign (by cases d <;> rfl)
      exact placed_last hvalue hchange (.inr hcloser) hrest

/-- The head of a loop stands at its places, up to the brace that opens the body. -/
theorem placed (hh : h.WellTyped Γ) (hts : ts.map Token.piece = h.pieces) {brace : Token}
    (hbrace : brace.kind = .lbrace) (hrest : PlacedAnywhere Γ rest) :
    PlacedAnywhere Γ (ts ++ brace :: rest) := by
  intro before _
  have ⟨T, hcounter, hinit, hbound, hchange⟩ := hh
  obtain ⟨keyword, _, rfl, hkeyword, hts⟩ := List.map_eq_cons_iff.mp hts
  obtain ⟨opener, _, rfl, hopener, hts⟩ := List.map_eq_cons_iff.mp hts
  obtain ⟨init, _, rfl, hinits, hts⟩ := List.map_eq_append_iff.mp hts
  obtain ⟨first, _, rfl, hfirst, hts⟩ := List.map_eq_cons_iff.mp hts
  obtain ⟨condition, _, rfl, hconditions, hts⟩ := List.map_eq_append_iff.mp hts
  obtain ⟨second, _, rfl, hsecond, hts⟩ := List.map_eq_cons_iff.mp hts
  obtain ⟨change, _, rfl, hchanges, hts⟩ := List.map_eq_append_iff.mp hts
  simp only [List.map_eq_cons_iff, List.map_eq_nil_iff] at hts
  obtain ⟨closer, _, rfl, hcloser, rfl⟩ := hts
  have hbody : Placed Γ (some closer) (brace :: rest) :=
    ⟨.mark (by simp [hbrace]) (by simp [hbrace]), hrest _ (by simp [hbrace])⟩
  simp only [List.cons_append, List.append_assoc, List.nil_append]
  refine ⟨.loop h (Token.isKeyword_of_piece hkeyword) ?_ hh, .of_piece hopener nofun nofun, ?_⟩
  · exact .mk (Token.kind_of_piece hopener) hinits (Token.kind_of_piece hfirst) hconditions
      (Token.kind_of_piece hsecond) hchanges (Token.kind_of_piece hcloser) hbrace
  · apply placed_init hcounter hinit hinits (Token.kind_of_piece hfirst)
    apply placed_condition hcounter hbound.known hconditions (Token.kind_of_piece hsecond)
    exact placed_change hcounter hchange hchanges (Token.kind_of_piece hcloser) hbody

end LoopHead

/-- Every token of a program has its place. -/
theorem placed {P : Program} (hP : P.WellTyped Γ) (hdeclared : P.declared ⊆ Γ)
    (hts : ts.map Token.piece = P.pieces) (hrest : PlacedAnywhere Γ rest) :
    PlacedAnywhere Γ (ts ++ rest) := by
  induction P generalizing ts rest with
  | done =>
      obtain rfl := List.map_eq_nil_iff.mp hts
      exact hrest
  | statement first next ih =>
      obtain ⟨front, others, rfl, hfront, hothers⟩ := List.map_eq_append_iff.mp hts
      obtain ⟨hfirst, hnext⟩ := List.append_subset.mp hdeclared
      rw [List.append_assoc]
      exact Statement.placed hP.1 hfirst hfront (ih hP.2 hnext hothers hrest)
  | loop head body next ihbody ihnext =>
      obtain ⟨front, others, rfl, hfront, hothers⟩ := List.map_eq_append_iff.mp hts
      obtain ⟨opener, _, rfl, hopener, hothers⟩ := List.map_eq_cons_iff.mp hothers
      obtain ⟨inside, _, rfl, hinside, hothers⟩ := List.map_eq_append_iff.mp hothers
      obtain ⟨closer, others, rfl, hcloser, hothers⟩ := List.map_eq_cons_iff.mp hothers
      obtain ⟨hfirst, hnext⟩ := List.append_subset.mp hdeclared
      obtain ⟨-, hbody⟩ := List.append_subset.mp hfirst
      have hbehind : PlacedAnywhere Γ (closer :: (others ++ rest)) := by
        intro before _
        refine ⟨.of_piece hcloser nofun nofun, ihnext hP.2.2 hnext hothers hrest _ ?_⟩
        simp [Token.kind_of_piece hcloser, Piece.rbrace]
      simp only [List.cons_append, List.append_assoc]
      apply LoopHead.placed hP.1 hfront (Token.kind_of_piece hopener)
      exact ihbody hP.2.1 hbody hinside hbehind

/-- The tokens of a whole program have their places. -/
theorem placed_none {P : Program} (hP : P.WellTyped P.declared)
    (hts : ts.map Token.piece = P.pieces) : Placed P.declared none ts := by
  have h : PlacedAnywhere P.declared (ts ++ []) :=
    placed hP (List.Subset.refl _) hts fun _ _ => trivial
  rw [List.append_nil] at h
  exact h none rfl

end

end Program

end LessonCheck
