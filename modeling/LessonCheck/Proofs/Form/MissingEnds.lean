import LessonCheck.Proofs.Form.Recognition

/-!
Where a semicolon is missing. A declaration and an assignment are followed to the first token that
can stop a statement, and a closed print call wants its semicolon right behind. The check looks for
all three at every token, and reports a print call at its method, which may stand four tokens
further on; still the reports come in the order of their tokens and no token has two, because
between the beginning of a call and its method nothing else can lack its end.
-/

namespace LessonCheck

/-- A kind of token at which the search for the end of a statement stops. -/
def Token.Kind.stopsStatement : Token.Kind → Bool
  | .semicolon | .keyword | .lbrace | .rbrace => true
  | _ => false

namespace Tokens

open OutputCall

variable {ts front rest : Tokens} {t : Token} {start i j : Nat} {call : OutputCall}

/-! ### What lacks its end -/

/-- Number `i` is the first from `start` on at which a statement stops. -/
structure StopsAt (ts : Tokens) (start i : Nat) : Prop where
  le : start ≤ i
  stops : ∃ t, ts[i]? = some t ∧ t.kind.stopsStatement = true
  first (j : Nat) (t : Token) : start ≤ j → j < i → ts[j]? = some t →
    t.kind.stopsStatement = false

/-- The statement whose tokens go on at number `start` does not stop, or not at a semicolon. -/
def RunsOut (ts : Tokens) (start : Nat) : Prop :=
  ∀ i, ts.StopsAt start i → ts.hasKindAt i .semicolon = false

/-- Something lacks its semicolon, and token number `i` is the one to report it at. -/
inductive LacksEnd (ts : Tokens) : Nat → EndingProblem → Prop
  | declaration {i : Nat} {type : Token} : ts[i]? = some type → type.isTypeKeyword = true →
      i + 1 < ts.length → ts.RunsOut (i + 1) → LacksEnd ts i .declaration
  | assignment {i : Nat} {name : Token} : ts[i]? = some name → name.kind = .identifier →
      ts.hasOperatorAt (i + 1) "=" = true →
      (∀ j t, j + 1 = i → ts[j]? = some t → t.isTypeKeyword = false) →
      i + 2 < ts.length → ts.RunsOut (i + 2) → LacksEnd ts i (.assignment name.lexeme)
  | printCall {start closer : Nat} {call : OutputCall} : ts.outputCall? start = some call →
      call.closeIndex? start = some closer → ts.hasKindAt (closer + 1) .semicolon = false →
      LacksEnd ts (call.methodIndex start) (.printCall call.name)

/-- What the check says of a problem whose token has this number. -/
def ReportsAt (ts : Tokens) (site : Nat × EndingProblem) (p : Located EndingProblem) : Prop :=
  ts[site.1]?.map (fun t => ⟨t.location, site.2⟩) = some p

/-! ### The search for the end -/

theorem stopsAt_iff_of_stops (ht : ts[start]? = some t) (hstops : t.kind.stopsStatement = true) :
    ts.StopsAt start i ↔ i = start := by
  constructor
  · intro h
    refine Nat.le_antisymm (Nat.le_of_not_lt fun hlt => ?_) h.le
    rw [h.first start t (Nat.le_refl _) hlt ht] at hstops
    cases hstops
  · rintro rfl
    exact ⟨Nat.le_refl _, ⟨t, ht, hstops⟩, fun j _ hle hlt => absurd hlt (Nat.not_lt_of_le hle)⟩

theorem stopsAt_iff_succ (ht : ts[start]? = some t) (hpass : t.kind.stopsStatement = false) :
    ts.StopsAt start i ↔ ts.StopsAt (start + 1) i := by
  constructor
  · rintro ⟨hle, ⟨u, hu, hstops⟩, hfirst⟩
    have hne : start ≠ i := by
      rintro rfl
      obtain rfl : t = u := by simpa [ht] using hu
      rw [hpass] at hstops
      cases hstops
    exact ⟨Nat.lt_of_le_of_ne hle hne, ⟨u, hu, hstops⟩,
      fun j u hj => hfirst j u (Nat.le_of_succ_le hj)⟩
  · rintro ⟨hle, hstops, hfirst⟩
    refine ⟨Nat.le_of_succ_le hle, hstops, fun j u hj hlt hu => ?_⟩
    rcases Nat.eq_or_lt_of_le hj with rfl | hbehind
    · obtain rfl : t = u := by simpa [ht] using hu
      exact hpass
    · exact hfirst j u hbehind hlt hu

theorem not_stopsAt_of_le (h : ts.length ≤ start) : ¬ ts.StopsAt start i := by
  rintro ⟨hle, ⟨t, ht, -⟩, -⟩
  have hlt := (List.getElem?_eq_some_iff.mp ht).1
  omega

theorem ofTokens_eq_semicolon_iff (front rest : Tokens) :
    StatementEnd.ofTokens rest = .semicolon ↔ ¬ RunsOut (front ++ rest) front.length := by
  induction rest generalizing front with
  | nil =>
      refine iff_of_false (by simp [StatementEnd.ofTokens]) fun h => h fun i hstops => ?_
      exact absurd hstops (not_stopsAt_of_le (by simp))
  | cons t rest ih =>
      have ht : (front ++ t :: rest)[front.length]? = some t := by simp
      by_cases hstops : t.kind.stopsStatement = true
      · have hruns : RunsOut (front ++ t :: rest) front.length ↔
            hasKindAt (front ++ t :: rest) front.length .semicolon = false := by
          simp only [RunsOut, stopsAt_iff_of_stops ht hstops, forall_eq]
        rw [hruns]
        cases hkind : t.kind <;>
          simp_all [Token.Kind.stopsStatement, StatementEnd.ofTokens, hasKindAt, kind?]
      · have hpass : t.kind.stopsStatement = false := by simpa using hstops
        have hnext : StatementEnd.ofTokens (t :: rest) = StatementEnd.ofTokens rest := by
          cases hkind : t.kind <;>
            simp_all [Token.Kind.stopsStatement, StatementEnd.ofTokens]
        have hbehind := ih (front ++ [t])
        rw [List.append_assoc, List.singleton_append, List.length_append,
          List.length_singleton] at hbehind
        rw [hnext, hbehind]
        simp only [RunsOut, stopsAt_iff_succ ht hpass]

/-- There is something left of a statement, and it runs out. -/
theorem isUnended_iff (front rest : Tokens) :
    rest.isUnended = true ↔
      front.length < (front ++ rest).length ∧ RunsOut (front ++ rest) front.length := by
  have hends : StatementEnd.ofTokens rest ≠ .semicolon ↔ RunsOut (front ++ rest) front.length :=
    (not_congr (ofTokens_eq_semicolon_iff front rest)).trans not_not
  rw [isUnended, Bool.and_eq_true, decide_eq_true_eq, hends]
  cases rest <;> simp

theorem isUnended_drop_iff (ts : Tokens) (start : Nat) :
    isUnended (ts.drop start) = true ↔ start < ts.length ∧ ts.RunsOut start := by
  rcases Nat.lt_or_ge start ts.length with hlt | hle
  · have hends := isUnended_iff (ts.take start) (ts.drop start)
    rwa [List.take_append_drop, List.length_take_of_le (Nat.le_of_lt hlt)] at hends
  · rw [List.drop_eq_nil_of_le hle]
    exact iff_of_false (by simp [isUnended]) fun h => Nat.not_lt_of_le hle h.1

/-! ### The three checks at one token -/

theorem getLast?_isTypeKeyword_iff (front rest : Tokens) :
    front.getLast?.any Token.isTypeKeyword = false ↔
      ∀ j t, j + 1 = front.length → (front ++ rest)[j]? = some t → t.isTypeKeyword = false := by
  rcases List.eq_nil_or_concat front with rfl | ⟨init, last, rfl⟩
  · simp
  · have hlast : (init ++ last :: rest)[init.length]? = some last := by simp
    simp only [List.concat_eq_append, List.getLast?_concat, Option.any_some, List.append_assoc,
      List.singleton_append, List.length_append, List.length_singleton, Nat.add_right_cancel_iff]
    constructor
    · rintro hkey j t rfl ht
      obtain rfl : last = t := by simpa [hlast] using ht
      exact hkey
    · exact fun h => h _ last rfl hlast

theorem isUnended_behind (front : Tokens) (t : Token) (rest : Tokens) :
    rest.isUnended = true ↔ front.length + 1 < (front ++ t :: rest).length ∧
      RunsOut (front ++ t :: rest) (front.length + 1) := by
  have hdrop : (front ++ t :: rest).drop (front.length + 1) = rest := by simp
  rw [← isUnended_drop_iff, hdrop]

theorem isUnended_drop_one (front : Tokens) (t : Token) (rest : Tokens) :
    isUnended (rest.drop 1) = true ↔ front.length + 2 < (front ++ t :: rest).length ∧
      RunsOut (front ++ t :: rest) (front.length + 2) := by
  have hdrop : (front ++ t :: rest).drop (front.length + 2) = rest.drop 1 := by simp
  rw [← isUnended_drop_iff, hdrop]

theorem any_isOperator_behind (front : Tokens) (t : Token) (rest : Tokens) (symbol : String) :
    rest[0]?.any (·.isOperator symbol) =
      hasOperatorAt (front ++ t :: rest) (front.length + 1) symbol :=
  congrArg (Option.any fun next : Token => next.isOperator symbol)
    (getElem?_behind front t rest 0).symm

theorem LacksEnd.of_declaration (h : ts.LacksEnd i .declaration) :
    ∃ type, ts[i]? = some type ∧ type.isTypeKeyword = true ∧ i + 1 < ts.length ∧
      ts.RunsOut (i + 1) := by
  cases h with
  | declaration htype hkey hmore hruns => exact ⟨_, htype, hkey, hmore, hruns⟩

theorem LacksEnd.of_assignment {word : String} (h : ts.LacksEnd i (.assignment word)) :
    ∃ name, ts[i]? = some name ∧ name.kind = .identifier ∧ name.lexeme = word ∧
      ts.hasOperatorAt (i + 1) "=" = true ∧
      (∀ j t, j + 1 = i → ts[j]? = some t → t.isTypeKeyword = false) ∧
      i + 2 < ts.length ∧ ts.RunsOut (i + 2) := by
  cases h with
  | assignment hname hkind hequals hfree hmore hruns =>
      exact ⟨_, hname, hkind, rfl, hequals, hfree, hmore, hruns⟩

/-- What the check of declarations and assignments reports lacks its end. -/
theorem lacksEnd_of_mem {p : Located EndingProblem}
    (h : p ∈ statementEnding front.getLast? t rest) :
    p.location = t.location ∧ p.problem.isPrintCall = false ∧
      LacksEnd (front ++ t :: rest) front.length p.problem := by
  have hhere : (front ++ t :: rest)[front.length]? = some t := by simp
  unfold statementEnding at h
  split at h
  · next htype =>
      split at h
      · next hends =>
          obtain rfl := List.mem_singleton.mp h
          obtain ⟨hmore, hruns⟩ := (isUnended_behind front t rest).mp hends
          exact ⟨rfl, rfl, .declaration hhere htype hmore hruns⟩
      · cases h
  · split at h
    · next hsite =>
        rw [any_isOperator_behind front t rest] at hsite
        simp only [Bool.and_eq_true, decide_eq_true_eq, Bool.not_eq_true'] at hsite
        obtain ⟨⟨hname, hequals⟩, hfree⟩ := hsite
        split at h
        · next hends =>
            obtain rfl := List.mem_singleton.mp h
            obtain ⟨hmore, hruns⟩ := (isUnended_drop_one front t rest).mp hends
            exact ⟨rfl, rfl, .assignment hhere hname hequals
              ((getLast?_isTypeKeyword_iff front _).mp hfree) hmore hruns⟩
        · cases h
    · cases h

/-- A declaration or an assignment that lacks its end is reported. -/
theorem mem_of_lacksEnd {problem : EndingProblem} (hprint : problem.isPrintCall = false)
    (h : LacksEnd (front ++ t :: rest) front.length problem) :
    ⟨t.location, problem⟩ ∈ statementEnding front.getLast? t rest := by
  have hhere : (front ++ t :: rest)[front.length]? = some t := by simp
  unfold statementEnding
  cases problem with
  | declaration =>
      obtain ⟨type, htype, hkey, hends⟩ := h.of_declaration
      obtain rfl := Option.some.inj (hhere.symm.trans htype)
      rw [if_pos hkey, if_pos ((isUnended_behind front t rest).mpr hends)]
      exact List.mem_singleton_self _
  | assignment word =>
      obtain ⟨name, hname, hkind, rfl, hequals, hfree, hends⟩ := h.of_assignment
      obtain rfl := Option.some.inj (hhere.symm.trans hname)
      have hkey : ¬ t.isTypeKeyword = true := by
        simp [Token.isTypeKeyword, Token.typeNamed?, hkind]
      rw [if_neg hkey, any_isOperator_behind front t rest, hequals,
        (getLast?_isTypeKeyword_iff front _).mpr hfree, decide_eq_true hkind,
        if_pos ((isUnended_drop_one front t rest).mpr hends)]
      exact List.mem_singleton_self _
  | printCall word => cases hprint

/-- What stands behind the closer of a call. -/
theorem exists_closer {e : Enclosed} (hcall : ts.outputCall? i = some call)
    (he : call.arguments = some e) :
    ∃ closer, call.closeIndex? i = some closer ∧ ∀ kind,
      ts.hasKindAt (closer + 1) kind = e.after[0]?.any (·.kind = kind) := by
  obtain ⟨path, opener, hts, -, hcloser⟩ := exists_split_of_arguments hcall he
  refine ⟨_, hcloser, fun kind => ?_⟩
  have hplace : path.length + 1 + e.inside.length = (path ++ opener :: e.inside).length := by
    simp only [List.length_append, List.length_cons]
    omega
  rw [hts, hplace, ← hasKindAt_behind (path ++ opener :: e.inside) e.closer]
  simp

/-- A closed call without a semicolon is reported at its method. -/
theorem mem_endingProblems (hcall : ts.outputCall? i = some call) {p : Located EndingProblem} :
    p ∈ call.endingProblems ↔ p = ⟨call.method.location, .printCall call.name⟩ ∧
      ∃ closer, call.closeIndex? i = some closer ∧
        ts.hasKindAt (closer + 1) .semicolon = false := by
  unfold OutputCall.endingProblems
  cases he : call.arguments with
  | none => simp [OutputCall.closeIndex?, he]
  | some e =>
      obtain ⟨closer, hcloser, hbehind⟩ := exists_closer hcall he
      rw [hcloser, Option.elim_some]
      simp only [Option.some.injEq, exists_eq_left', hbehind]
      split
      · next h => simp [h]
      · next h => simp [h]

/-! ### The sites in order -/

/-- The problems found at a place, with the numbers of the tokens they are reported at. -/
def endingSitesAt (s : Split) : List (Nat × EndingProblem) :=
  ((OutputCall.at? s.front.getLast? s.token s.rest).elim [] fun call =>
      call.endingProblems.map fun p => (call.methodIndex s.front.length, p.problem)) ++
    (statementEnding s.front.getLast? s.token s.rest).map fun p => (s.front.length, p.problem)

def endingSites (ts : Tokens) : List (Nat × EndingProblem) := ts.splits.flatMap endingSitesAt

variable {s s' : Split} {site : Nat × EndingProblem}

theorem at?_eq_outputCall? (hs : s ∈ ts.splits) :
    OutputCall.at? s.front.getLast? s.token s.rest = ts.outputCall? s.front.length := by
  rw [mem_splits.mp hs, outputCall?_append]

/-- A site belongs to the call that begins at the place, or to the place itself. -/
theorem mem_endingSitesAt (hs : s ∈ ts.splits) :
    site ∈ endingSitesAt s ↔
      (∃ call, ts.outputCall? s.front.length = some call ∧
        site = (call.methodIndex s.front.length, .printCall call.name) ∧
        ∃ closer, call.closeIndex? s.front.length = some closer ∧
          ts.hasKindAt (closer + 1) .semicolon = false) ∨
      site.1 = s.front.length ∧ site.2.isPrintCall = false ∧ ts.LacksEnd site.1 site.2 := by
  have hts := mem_splits.mp hs
  rw [endingSitesAt, List.mem_append, at?_eq_outputCall? hs]
  refine or_congr ?_ ?_
  · cases hcall : ts.outputCall? s.front.length with
    | none => simp
    | some call =>
        simp only [Option.elim_some, List.mem_map, mem_endingProblems hcall, Option.some.injEq,
          exists_eq_left']
        constructor
        · rintro ⟨p, ⟨rfl, hcloser⟩, rfl⟩
          exact ⟨rfl, hcloser⟩
        · rintro ⟨rfl, hcloser⟩
          exact ⟨_, ⟨rfl, hcloser⟩, rfl⟩
  · rw [List.mem_map]
    constructor
    · rintro ⟨p, hp, rfl⟩
      obtain ⟨-, hprint, hlacks⟩ := lacksEnd_of_mem hp
      rw [← hts] at hlacks
      exact ⟨rfl, hprint, hlacks⟩
    · obtain ⟨i, problem⟩ := site
      rintro ⟨rfl, hprint, hlacks⟩
      rw [hts] at hlacks
      exact ⟨_, mem_of_lacksEnd hprint hlacks, rfl⟩

/-- The sites are those of what lacks its end. -/
theorem mem_endingSites : site ∈ ts.endingSites ↔ ts.LacksEnd site.1 site.2 := by
  rw [endingSites, List.mem_flatMap]
  constructor
  · rintro ⟨s, hs, hsite⟩
    rcases (mem_endingSitesAt hs).mp hsite with ⟨call, hcall, rfl, closer, hcloser, hsemicolon⟩ | h
    · exact .printCall hcall hcloser hsemicolon
    · exact h.2.2
  · obtain ⟨i, problem⟩ := site
    intro h
    have hplace {j : Nat} {t : Token} (ht : ts[j]? = some t) :
        ∃ s ∈ ts.splits, s.front.length = j := by
      obtain ⟨front, rest, hts, hlength⟩ := exists_split_of_getElem? ht
      exact ⟨⟨front, t, rest⟩, mem_splits.mpr hts, hlength⟩
    cases hlacks : h with
    | declaration htype _ _ _ =>
        obtain ⟨s, hs, rfl⟩ := hplace htype
        exact ⟨s, hs, (mem_endingSitesAt hs).mpr (Or.inr ⟨rfl, rfl, h⟩)⟩
    | assignment hname _ _ _ _ _ =>
        obtain ⟨s, hs, rfl⟩ := hplace hname
        exact ⟨s, hs, (mem_endingSitesAt hs).mpr (Or.inr ⟨rfl, rfl, h⟩)⟩
    | printCall hcall hcloser hsemicolon =>
        obtain ⟨front, t, rest, hts, rfl, -⟩ := exists_at?_of_outputCall? hcall
        have hs : ⟨front, t, rest⟩ ∈ ts.splits := mem_splits.mpr hts
        exact ⟨_, hs, (mem_endingSitesAt hs).mpr (Or.inl ⟨_, hcall, rfl, _, hcloser, hsemicolon⟩)⟩

/-- On the way from the beginning of a call to its parenthesis no declaration or assignment
begins. -/
theorem not_lacksEnd_of_head (h : ts.outputCall? i = some call) (hij : i ≤ j)
    (hj : j < call.openIndex i) {problem : EndingProblem} (hprint : problem.isPrintCall = false) :
    ¬ ts.LacksEnd j problem := by
  intro hlacks
  cases problem with
  | declaration =>
      obtain ⟨type, htype, hkey, -⟩ := hlacks.of_declaration
      obtain ⟨declared, hdeclared⟩ := Option.isSome_iff_exists.mp hkey
      have hkeyword := hasKindAt_iff.mpr ⟨type, htype, Token.kind_of_typeNamed? hdeclared⟩
      rcases head_cases h hij hj with ⟨hname, -⟩ | ⟨hdot, -⟩
      · cases kind_unique hkeyword hname
      · cases kind_unique hkeyword hdot
  | assignment word =>
      obtain ⟨name, hname, hkind, -, hequals, -⟩ := hlacks.of_assignment
      obtain ⟨next, hnext, hoperator, -⟩ := hasOperatorAt_iff.mp hequals
      have hbehind := hasKindAt_iff.mpr ⟨next, hnext, hoperator⟩
      rcases head_cases h hij hj with ⟨-, -, hdot | hopener⟩ | ⟨hdot, -⟩
      · cases kind_unique hbehind hdot
      · cases kind_unique hbehind hopener
      · cases kind_unique (hasKindAt_iff.mpr ⟨name, hname, hkind⟩) hdot
  | printCall word => cases hprint

theorem le_of_mem_endingSitesAt (hs : s ∈ ts.splits) (h : site ∈ endingSitesAt s) :
    s.front.length ≤ site.1 := by
  rcases (mem_endingSitesAt hs).mp h with ⟨call, -, rfl, -⟩ | ⟨hplace, -⟩
  · exact le_methodIndex call _
  · exact Nat.le_of_eq hplace.symm

theorem lt_of_mem_endingSitesAt (hs : s ∈ ts.splits) (hs' : s' ∈ ts.splits)
    (hlt : s.front.length < s'.front.length) {site' : Nat × EndingProblem}
    (h : site ∈ endingSitesAt s) (h' : site' ∈ endingSitesAt s') : site.1 < site'.1 := by
  refine Nat.lt_of_lt_of_le ?_ (le_of_mem_endingSitesAt hs' h')
  rcases (mem_endingSitesAt hs).mp h with ⟨call, hcall, rfl, -⟩ | ⟨hplace, -⟩
  · -- A place on the way to the method has no site.
    have hbehind : call.openIndex s.front.length ≤ s'.front.length := by
      refine Nat.le_of_not_lt fun hhead => ?_
      rcases (mem_endingSitesAt hs').mp h' with ⟨other, hother, -⟩ | ⟨hplace, hprint, hlacks⟩
      · rw [outputCall?_eq_none_of_head hcall hlt hhead] at hother
        cases hother
      · rw [hplace] at hlacks
        exact not_lacksEnd_of_head hcall (Nat.le_of_lt hlt) hhead hprint hlacks
    rw [← call.methodIndex_succ] at hbehind
    exact Nat.lt_of_succ_le hbehind
  · rwa [hplace]

theorem length_endingProblems_le (call : OutputCall) : call.endingProblems.length ≤ 1 := by
  unfold OutputCall.endingProblems
  cases call.arguments with
  | none => exact Nat.zero_le 1
  | some e =>
      rw [Option.elim_some]
      split
      · exact Nat.zero_le 1
      · exact Nat.le_refl 1

theorem length_statementEnding_le (before : Option Token) (t : Token) (rest : Tokens) :
    (statementEnding before t rest).length ≤ 1 := by
  unfold statementEnding
  split
  · split <;> simp
  · split
    · split <;> simp
    · simp

/-- A place has at most one site. -/
theorem length_endingSitesAt_le (hs : s ∈ ts.splits) : (endingSitesAt s).length ≤ 1 := by
  have hstatement := length_statementEnding_le s.front.getLast? s.token s.rest
  rw [endingSitesAt, at?_eq_outputCall? hs, List.length_append, List.length_map]
  cases hcall : ts.outputCall? s.front.length with
  | none => simpa using hstatement
  | some call =>
      have hhead : s.front.length < call.openIndex s.front.length := by
        rw [← call.methodIndex_succ]
        exact Nat.lt_succ_of_le (le_methodIndex call _)
      have hnone : statementEnding s.front.getLast? s.token s.rest = [] := by
        refine List.eq_nil_iff_forall_not_mem.mpr fun p hp => ?_
        obtain ⟨-, hprint, hlacks⟩ := lacksEnd_of_mem hp
        rw [← mem_splits.mp hs] at hlacks
        exact not_lacksEnd_of_head hcall (Nat.le_refl _) hhead hprint hlacks
      rw [hnone, Option.elim_some, List.length_map]
      exact length_endingProblems_le call

theorem pairwise_endingSites (ts : Tokens) :
    ts.endingSites.Pairwise fun a b => a.1 < b.1 := by
  refine List.pairwise_flatMap.mpr ⟨fun s hs => ?_, ?_⟩
  · have hlength := length_endingSitesAt_le hs
    rcases hsites : endingSitesAt s with _ | ⟨site, _ | ⟨site', sites⟩⟩
    · exact List.Pairwise.nil
    · exact List.pairwise_singleton _ _
    · rw [hsites, List.length_cons, List.length_cons] at hlength
      omega
  · exact (pairwise_splits ts).imp_of_mem fun hs hs' hlt site h site' h' =>
      lt_of_mem_endingSitesAt hs hs' hlt h h'

/-- The problems are reported at their sites, one after the other. -/
theorem forall₂_reportsAt (ts : Tokens) :
    List.Forall₂ ts.ReportsAt ts.endingSites ts.endingProblems := by
  rw [endingSites, endingProblems, survey_eq_flatMap]
  refine forall₂_flatMap fun s hs => ?_
  have hts := mem_splits.mp hs
  rw [endingSitesAt, printEnding_eq_inCall, inCall, at?_eq_outputCall? hs]
  refine List.rel_append ?_ ?_
  · cases hcall : ts.outputCall? s.front.length with
    | none => exact List.Forall₂.nil
    | some call =>
        simp only [Option.elim_some]
        rw [List.forall₂_map_left_iff, List.forall₂_same]
        intro p hp
        obtain ⟨rfl, -⟩ := (mem_endingProblems hcall).mp hp
        rw [ReportsAt, getElem?_methodIndex hcall, Option.map_some]
  · rw [List.forall₂_map_left_iff, List.forall₂_same]
    intro p hp
    have hhere : ts[s.front.length]? = some s.token := by rw [hts]; simp
    rw [ReportsAt, hhere, Option.map_some, ← (lacksEnd_of_mem hp).1]

/-- What lacks its semicolon is reported, one problem after the other and each at a token of its
own. -/
theorem missingEnds_exact (ts : Tokens) :
    ∃ sites : List (Nat × EndingProblem),
      (∀ i problem, (i, problem) ∈ sites ↔ ts.LacksEnd i problem) ∧
      sites.Pairwise (fun a b => a.1 < b.1) ∧
      List.Forall₂ ts.ReportsAt sites ts.endingProblems :=
  ⟨ts.endingSites, fun _ _ => mem_endingSites, pairwise_endingSites ts, forall₂_reportsAt ts⟩

/-- The report of the print call comes before that of the assignment among its arguments. -/
example : (Token.ofText "System.out.print(i = 5)").endingSites =
    [(4, .printCall "System.out.print"), (6, .assignment "i")] := by
  decide +kernel

end Tokens

end LessonCheck
