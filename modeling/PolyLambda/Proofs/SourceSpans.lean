import PolyLambda.Proofs.Relocation
import PolyLambda.Proofs.TokenPlaces

/-!
# What the spans of a syntax tree denote

Every node that is parsed has a span in the source, and the part of the source that its
span denotes is parsed to this node again. Only an abstraction or a quantifier over several
parameters is several nodes with one span, of which the outermost is parsed again.
-/

namespace PolyLambda.Grammar

open PolyLambda.Named
open PolyLambda.Source (Masks MaskedText)

/-! ## Nodes -/

/-- A node of what has been parsed. -/
inductive Node
  | statement (value : Statement)
  | term (value : Term)
  | type (value : Ty)
  | ident (value : Ident)

namespace Node

def span : Node → Span
  | statement value => value.span
  | term value => value.span
  | type value => value.span
  | ident value => value.span

def children : Node → List Node
  | statement value =>
    match value.command with
    | .assumeType name => [ident name]
    | .assumeTerm name ty => [ident name, type ty]
    | .define name none body => [ident name, term body]
    | .define name (some expected) body => [ident name, type expected, term body]
    | .reduce body => [term body]
    | .print name => [ident name]
    | .clear => []
  | term (.var _ _) => []
  | term (.lam _ param paramType body) => [ident param, type paramType, term body]
  | term (.app _ function argument) => [term function, term argument]
  | term (.tyLam _ param body) => [ident param, term body]
  | term (.tyApp _ function argument) => [term function, type argument]
  | type (.var _ _) => []
  | type (.arrow _ domain codomain) => [type domain, type codomain]
  | type (.all _ param body) => [ident param, type body]
  | ident _ => []

/-- The nodes of a tree. -/
inductive Within (root : Node) : Node → Prop
  | root : Within root root
  | child {parent child : Node} (inside : Within root parent) (member : child ∈ parent.children) :
      Within root child

/-- A binder goes on with the list of parameters that the binder around it has begun: both
have the same span, and a comma stands before its parameter. -/
inductive Continues (tokens : List Token) : Node → Node → Prop
  | all {span : Span} (comma : Span) {param inner : Ident} {body : Ty}
      (follows : [Symbol.comma.token comma, inner.token] <:+: tokens) :
      Continues tokens (type (.all span param (.all span inner body)))
        (type (.all span inner body))
  | lam {span : Span} (comma : Span) {param inner : Ident} {paramType innerType : Ty} {body : Term}
      (follows : [Symbol.comma.token comma, inner.token] <:+: tokens) :
      Continues tokens (term (.lam span param paramType (.lam span inner innerType body)))
        (term (.lam span inner innerType body))
  | tyLam {span : Span} (comma : Span) {param inner : Ident} {body : Term}
      (follows : [Symbol.comma.token comma, inner.token] <:+: tokens) :
      Continues tokens (term (.tyLam span param (.tyLam span inner body)))
        (term (.tyLam span inner body))

/-- The part of the source that the span of a node denotes is parsed to the node, up to its
place. The span of an identifier denotes its name. -/
def ReadsBack (source : String) : Node → Prop
  | statement value => ∃ part small, value.span.slice? source = some part ∧
      parseStatement part = .ok small ∧ small.moved value.span.start = value
  | term value => ∃ part small, value.span.slice? source = some part ∧
      parseTerm part = .ok small ∧ small.moved value.span.start = value
  | type value => ∃ part small, value.span.slice? source = some part ∧
      parseType part = .ok small ∧ small.moved value.span.start = value
  | ident value => value.span.slice? source = some value.name

end Node

/-! ## The extents of phrases -/

/-- The place of two pieces together reaches from the first to the end of the second. -/
theorem extent_append {front rest : List Token} (front_ne : front ≠ []) (rest_ne : rest ≠ []) :
    extent (front ++ rest) = ⟨(extent front).start, (extent rest).stop⟩ := by
  have isFirst := List.head?_eq_some_head front_ne
  have isLast := List.getLast?_eq_some_getLast rest_ne
  simp [extent, List.head?_append, List.getLast?_append, isFirst, isLast]

/-- The place of a token and more reaches from the token to the end of the others. -/
theorem extent_cons {first : Token} {rest : List Token} (rest_ne : rest ≠ []) :
    extent (first :: rest) = ⟨first.span.start, (extent rest).stop⟩ := by
  rw [← List.singleton_append, extent_append (List.cons_ne_nil first []) rest_ne]
  rfl

namespace TypeTree

variable {level : TypeLevel}

/-- No type is written with nothing. -/
theorem tokens_ne_nil (tree : TypeTree level) : tree.tokens ≠ [] := by
  induction tree with
  | quantifier | arrow | name | group => simp [tokens]
  | atom inner innerIH => exact innerIH

/-- The outline of a type is the place of its tokens. -/
theorem extent_eq (tree : TypeTree level) : tree.phrase.extent = extent tree.tokens := by
  induction tree with
  | quantifier spelling keyword params dot body bodyIH =>
      rw [tokens, ← List.cons_append, extent_append (by simp) body.tokens_ne_nil, ← bodyIH]
      rfl
  | arrow domain spelling sign codomain domainIH codomainIH =>
      rw [tokens, extent_append domain.tokens_ne_nil (by simp), ← List.singleton_append,
        extent_append (by simp) codomain.tokens_ne_nil, ← domainIH, ← codomainIH]
      rfl
  | atom inner innerIH => exact innerIH
  | name ident => rfl
  | group openParen inner closeParen innerIH =>
      rw [tokens, ← List.cons_append, extent_append (by simp) (by simp)]
      rfl

end TypeTree

namespace TermTree

variable {level : TermLevel}

/-- No term is written with nothing. -/
theorem tokens_ne_nil (tree : TermTree level) : tree.tokens ≠ [] := by
  induction tree with
  | lam | tyLam | tyApp | name | group => simp [tokens]
  | app function argument functionIH => simp [tokens, functionIH]
  | application inner innerIH | atom inner innerIH => exact innerIH

/-- The outline of a term is the place of its tokens. -/
theorem extent_eq (tree : TermTree level) : tree.phrase.extent = extent tree.tokens := by
  induction tree with
  | lam spelling keyword params dot body bodyIH | tyLam spelling keyword params dot body bodyIH =>
      rw [tokens, ← List.cons_append, extent_append (by simp) body.tokens_ne_nil, ← bodyIH]
      rfl
  | application inner innerIH | atom inner innerIH => exact innerIH
  | app function argument functionIH argumentIH =>
      rw [tokens, extent_append function.tokens_ne_nil argument.tokens_ne_nil, ← functionIH,
        ← argumentIH]
      rfl
  | tyApp function openBracket argument closeBracket functionIH =>
      rw [tokens, extent_append function.tokens_ne_nil (by simp), ← List.cons_append,
        extent_append (by simp) (by simp), ← functionIH]
      rfl
  | name ident => rfl
  | group openParen inner closeParen innerIH =>
      rw [tokens, ← List.cons_append, extent_append (by simp) (by simp)]
      rfl

end TermTree

/-- The span of a statement is the place of its tokens. -/
theorem StatementTree.span_eq (tree : StatementTree) : tree.value.span = extent tree.tokens := by
  cases tree with
  | assumeType | print | clear => rfl
  | assumeTerm word keyword name colon type =>
      rw [tokens, extent_cons (by simp), extent_cons (by simp), extent_cons type.tokens_ne_nil,
        ← type.extent_eq]
      rfl
  | announce word keyword name colon type equals term =>
      rw [tokens, extent_cons (by simp), extent_cons (by simp), extent_cons (by simp),
        extent_append type.tokens_ne_nil (by simp), extent_cons term.tokens_ne_nil,
        ← term.extent_eq]
      rfl
  | define keyword name equals term =>
      rw [tokens, extent_cons (by simp), extent_cons (by simp), extent_cons term.tokens_ne_nil,
        ← term.extent_eq]
      rfl
  | reduce keyword term =>
      rw [tokens, extent_cons term.tokens_ne_nil, ← term.extent_eq]
      rfl

/-! ## Lists of parameters -/

namespace CommaList

variable {α : Type} {itemTokens : α → List Token} {front after tokens : List Token}

/-- The tokens of a list begin with those of its first item. -/
theorem exists_first (itemTokens : α → List Token) (list : CommaList α) :
    ∃ first rest more, list.items = first :: rest ∧
      list.tokens itemTokens = itemTokens first ++ more := by
  cases list with
  | single item => exact ⟨item, [], [], rfl, (List.append_nil _).symm⟩
  | cons item comma rest => exact ⟨item, rest.items, _, rfl, List.append_assoc ..⟩

/-- A list between commas has an item. -/
theorem exists_items (list : CommaList α) : ∃ first rest, list.items = first :: rest := by
  obtain ⟨first, rest, -, items, -⟩ := list.exists_first fun _ => []
  exact ⟨first, rest, items⟩

/-- The only item of a list stands inside the whole. -/
theorem single_inside {item : α}
    (whole : front ++ ((single item).tokens itemTokens ++ after) = tokens) :
    itemTokens item <:+: tokens :=
  ⟨front, after, (List.append_assoc ..).trans whole⟩

/-- The first item of a longer list stands inside the whole. -/
theorem cons_inside {item : α} {comma : Span} {rest : CommaList α}
    (whole : front ++ ((cons item comma rest).tokens itemTokens ++ after) = tokens) :
    itemTokens item <:+: tokens :=
  ⟨front, Symbol.comma.token comma :: (rest.tokens itemTokens ++ after), by
    simp [← whole, CommaList.tokens]⟩

/-- After its first item and the comma, the rest of a list stands. -/
theorem cons_rest {item : α} {comma : Span} {rest : CommaList α}
    (whole : front ++ ((cons item comma rest).tokens itemTokens ++ after) = tokens) :
    (front ++ (itemTokens item ++ [Symbol.comma.token comma])) ++
      (rest.tokens itemTokens ++ after) = tokens := by
  simp [← whole, CommaList.tokens]

/-- A comma stands before the first item of the rest. -/
theorem comma_inside {item : α} {comma : Span} {rest : CommaList α}
    (whole : front ++ ((cons item comma rest).tokens itemTokens ++ after) = tokens) :
    ∃ first others, rest.items = first :: others ∧
      Symbol.comma.token comma :: itemTokens first <:+: tokens := by
  obtain ⟨first, others, more, items, restTokens⟩ := rest.exists_first itemTokens
  refine ⟨first, others, items, front ++ itemTokens item, more ++ after, ?_⟩
  simp [← whole, CommaList.tokens, restTokens]

/-- What follows a list and a dot stands inside the whole. -/
theorem after_inside {list : CommaList α} {dot : Token}
    (whole : front ++ (list.tokens itemTokens ++ dot :: after) = tokens) : after <:+: tokens :=
  ⟨front ++ (list.tokens itemTokens ++ [dot]), [], by simp [← whole]⟩

end CommaList

/-- The type of a parameter stands inside the parameter. -/
theorem ParamTree.type_inside (param : ParamTree) : param.type.tokens <:+: param.tokens :=
  ⟨[param.ident.token, Symbol.colon.token param.colon], [], by simp [ParamTree.tokens]⟩

/-! ## Phrases without parentheses around them -/

namespace TypeTree

variable {level : TypeLevel}

/-- No parentheses stand around the whole type. -/
def IsBare {level : TypeLevel} : TypeTree level → Prop
  | .quantifier .. | .arrow .. | .name _ => True
  | .atom inner => inner.IsBare
  | .group .. => False

/-- The span of a type that is in no parentheses is its outline. -/
theorem IsBare.span_eq {tree : TypeTree level} (bare : tree.IsBare) :
    tree.phrase.value.span = tree.phrase.extent := by
  induction tree with
  | quantifier spelling keyword params dot body =>
      obtain ⟨first, rest, items⟩ := params.exists_items
      simp only [phrase, items]
      rfl
  | arrow | name => rfl
  | atom inner innerIH => exact innerIH bare
  | group => exact bare.elim

/-- What is left of a type without the parentheses around it. -/
theorem exists_bare (tree : TypeTree level) :
    ∃ bare : TypeTree .type, bare.IsBare ∧ bare.phrase.value = tree.phrase.value ∧
      bare.tokens <:+: tree.tokens := by
  induction tree with
  | quantifier spelling keyword params dot body =>
      exact ⟨.quantifier spelling keyword params dot body, trivial, rfl, List.infix_refl _⟩
  | arrow domain spelling sign codomain =>
      exact ⟨.arrow domain spelling sign codomain, trivial, rfl, List.infix_refl _⟩
  | atom inner innerIH => exact innerIH
  | name ident => exact ⟨.atom (.name ident), trivial, rfl, List.infix_refl _⟩
  | group openParen inner closeParen innerIH =>
      obtain ⟨bare, isBare, value, inside⟩ := innerIH
      exact ⟨bare, isBare, value, inside.trans ⟨[_], [_], rfl⟩⟩

end TypeTree

namespace TermTree

variable {level : TermLevel}

/-- No parentheses stand around the whole term. -/
def IsBare {level : TermLevel} : TermTree level → Prop
  | .lam .. | .tyLam .. | .app .. | .tyApp .. | .name _ => True
  | .application inner | .atom inner => inner.IsBare
  | .group .. => False

/-- The span of a term that is in no parentheses is its outline. -/
theorem IsBare.span_eq {tree : TermTree level} (bare : tree.IsBare) :
    tree.phrase.value.span = tree.phrase.extent := by
  induction tree with
  | lam spelling keyword params dot body | tyLam spelling keyword params dot body =>
      obtain ⟨first, rest, items⟩ := params.exists_items
      simp only [phrase, items]
      rfl
  | app | tyApp | name => rfl
  | application inner innerIH | atom inner innerIH => exact innerIH bare
  | group => exact bare.elim

/-- What is left of a term without the parentheses around it. -/
theorem exists_bare (tree : TermTree level) :
    ∃ bare : TermTree .term, bare.IsBare ∧ bare.phrase.value = tree.phrase.value ∧
      bare.tokens <:+: tree.tokens := by
  induction tree with
  | lam spelling keyword params dot body =>
      exact ⟨.lam spelling keyword params dot body, trivial, rfl, List.infix_refl _⟩
  | tyLam spelling keyword params dot body =>
      exact ⟨.tyLam spelling keyword params dot body, trivial, rfl, List.infix_refl _⟩
  | application inner innerIH | atom inner innerIH => exact innerIH
  | app function argument =>
      exact ⟨.application (.app function argument), trivial, rfl, List.infix_refl _⟩
  | tyApp function openBracket argument closeBracket =>
      exact ⟨.application (.tyApp function openBracket argument closeBracket), trivial, rfl,
        List.infix_refl _⟩
  | name ident => exact ⟨.application (.atom (.name ident)), trivial, rfl, List.infix_refl _⟩
  | group openParen inner closeParen innerIH =>
      obtain ⟨bare, isBare, value, inside⟩ := innerIH
      exact ⟨bare, isBare, value, inside.trans ⟨[_], [_], rfl⟩⟩

end TermTree

/-! ## The tokens of nodes -/

namespace Node

/-- A node is derived from some tokens, the first and the last of which its span joins. -/
inductive Derives : Node → List Token → Prop
  | statement (tree : StatementTree) : Derives (statement tree.value) tree.tokens
  | term (tree : TermTree .term) (bare : tree.IsBare) :
      Derives (term tree.phrase.value) tree.tokens
  | type (tree : TypeTree .type) (bare : tree.IsBare) :
      Derives (type tree.phrase.value) tree.tokens
  | ident (value : Ident) : Derives (ident value) [value.token]

/-- A binder over the last parameters of a list has the span of the whole phrase, and its
tokens come after some others there. -/
inductive Binds : Node → List Token → Prop
  | all (front : List Token) (params : CommaList Ident) (dot : Span) (body : TypeTree .type)
      {span : Span} {tokens : List Token}
      (whole : front ++ (params.tokens (fun param => [param.token]) ++
        Symbol.dot.token dot :: body.tokens) = tokens) (spans : span = extent tokens) :
      Binds (type (.allMany span params.items body.phrase.value)) tokens
  | lam (front : List Token) (params : CommaList ParamTree) (dot : Span) (body : TermTree .term)
      {span : Span} {tokens : List Token}
      (whole : front ++ (params.tokens ParamTree.tokens ++
        Symbol.dot.token dot :: body.tokens) = tokens) (spans : span = extent tokens) :
      Binds (term (.lamMany span (params.items.map ParamTree.value) body.phrase.value)) tokens
  | tyLam (front : List Token) (params : CommaList Ident) (dot : Span) (body : TermTree .term)
      {span : Span} {tokens : List Token}
      (whole : front ++ (params.tokens (fun param => [param.token]) ++
        Symbol.dot.token dot :: body.tokens) = tokens) (spans : span = extent tokens) :
      Binds (term (.tyLamMany span params.items body.phrase.value)) tokens

variable {node : Node} {tokens : List Token}

/-- What a node is derived from is not empty. -/
theorem Derives.tokens_ne_nil (derives : node.Derives tokens) : tokens ≠ [] := by
  cases derives with
  | statement tree => exact tree.tokens_ne_nil
  | term tree => exact tree.tokens_ne_nil
  | type tree => exact tree.tokens_ne_nil
  | ident => simp

/-- The span of a node is the place of the tokens that it is derived from. -/
theorem Derives.span_eq (derives : node.Derives tokens) : node.span = extent tokens := by
  cases derives with
  | statement tree => exact tree.span_eq
  | term tree bare => exact bare.span_eq.trans tree.extent_eq
  | type tree bare => exact bare.span_eq.trans tree.extent_eq
  | ident => rfl

/-- What a node of a binder is made from is not empty. -/
theorem Binds.tokens_ne_nil (binds : node.Binds tokens) : tokens ≠ [] := by
  cases binds with
  | all _ _ _ _ whole | lam _ _ _ _ whole | tyLam _ _ _ _ whole => simp [← whole]

/-- The span of a node of a binder is the place of the tokens that it is made from. -/
theorem Binds.span_eq (binds : node.Binds tokens) : node.span = extent tokens := by
  cases binds with
  | all front params _ _ _ spans | lam front params _ _ _ spans
  | tyLam front params _ _ _ spans =>
      obtain ⟨first, rest, items⟩ := params.exists_items
      rw [items, ← spans]
      rfl

/-- A type is derived from some of its own tokens, those inside of its parentheses. -/
theorem exists_derives_type {level : TypeLevel} (tree : TypeTree level) :
    ∃ part, part <:+: tree.tokens ∧ (type tree.phrase.value).Derives part := by
  obtain ⟨bare, isBare, value, inside⟩ := tree.exists_bare
  exact ⟨bare.tokens, inside, value ▸ .type bare isBare⟩

/-- A term is derived from some of its own tokens, those inside of its parentheses. -/
theorem exists_derives_term {level : TermLevel} (tree : TermTree level) :
    ∃ part, part <:+: tree.tokens ∧ (term tree.phrase.value).Derives part := by
  obtain ⟨bare, isBare, value, inside⟩ := tree.exists_bare
  exact ⟨bare.tokens, inside, value ▸ .term bare isBare⟩

/-- A child of a node is derived from some of its tokens, or goes on with its parameters. -/
def ComesFrom (node : Node) (tokens : List Token) (child : Node) : Prop :=
  (∃ part, part <:+: tokens ∧ child.Derives part) ∨
    node.Continues tokens child ∧ child.Binds tokens

/-- A name comes from its token. -/
theorem comesFrom_ident {ident : Ident} (inside : [ident.token] <:+: tokens) :
    node.ComesFrom tokens (.ident ident) :=
  .inl ⟨_, inside, .ident ident⟩

/-- A type comes from the tokens that it is written with. -/
theorem comesFrom_type {level : TypeLevel} {tree : TypeTree level}
    (inside : tree.tokens <:+: tokens) :
    node.ComesFrom tokens (.type tree.phrase.value) := by
  obtain ⟨part, partInside, derives⟩ := exists_derives_type tree
  exact .inl ⟨part, partInside.trans inside, derives⟩

/-- A term comes from the tokens that it is written with. -/
theorem comesFrom_term {level : TermLevel} {tree : TermTree level}
    (inside : tree.tokens <:+: tokens) :
    node.ComesFrom tokens (.term tree.phrase.value) := by
  obtain ⟨part, partInside, derives⟩ := exists_derives_term tree
  exact .inl ⟨part, partInside.trans inside, derives⟩

/-- The children of a node of a binder come from its tokens. -/
theorem Binds.child (binds : node.Binds tokens) {child : Node} (member : child ∈ node.children) :
    node.ComesFrom tokens child := by
  -- Under the last parameter stands the body, under any other the binder of the next one.
  cases binds with
  | @all front params dot body span _ whole spans =>
      have bodyInside := CommaList.after_inside whole
      cases params with
      | single param =>
          obtain rfl | rfl : child = ident param ∨ child = type body.phrase.value := by
            simpa [children, CommaList.items, Ty.allMany] using member
          · exact comesFrom_ident (CommaList.single_inside whole)
          · exact comesFrom_type bodyInside
      | cons param comma rest =>
          obtain rfl | rfl : child = ident param ∨
              child = type (.allMany span rest.items body.phrase.value) := by
            simpa [children, CommaList.items, Ty.allMany] using member
          · have inside := CommaList.cons_inside whole
            exact comesFrom_ident inside
          · obtain ⟨inner, others, items, follows⟩ := CommaList.comma_inside whole
            refine .inr ⟨?_, .all _ rest dot body (CommaList.cons_rest whole) spans⟩
            rw [CommaList.items, items]
            exact .all comma follows
  | @lam front params dot body span _ whole spans =>
      have bodyInside := CommaList.after_inside whole
      cases params with
      | single param =>
          have inside := CommaList.single_inside whole
          obtain rfl | rfl | rfl : child = ident param.ident ∨
              child = type param.type.phrase.value ∨ child = term body.phrase.value := by
            simpa [children, CommaList.items, Term.lamMany, ParamTree.value] using member
          · exact comesFrom_ident (List.IsInfix.trans ⟨[], _, rfl⟩ inside)
          · exact comesFrom_type (param.type_inside.trans inside)
          · exact comesFrom_term bodyInside
      | cons param comma rest =>
          have inside := CommaList.cons_inside whole
          obtain rfl | rfl | rfl : child = ident param.ident ∨
              child = type param.type.phrase.value ∨
              child = term (.lamMany span (rest.items.map ParamTree.value) body.phrase.value) := by
            simpa [children, CommaList.items, Term.lamMany, ParamTree.value] using member
          · exact comesFrom_ident (List.IsInfix.trans ⟨[], _, rfl⟩ inside)
          · exact comesFrom_type (param.type_inside.trans inside)
          · obtain ⟨inner, others, items, follows⟩ := CommaList.comma_inside whole
            refine .inr ⟨?_, .lam _ rest dot body (CommaList.cons_rest whole) spans⟩
            rw [CommaList.items, items]
            exact .lam comma (List.IsInfix.trans ⟨[], _, rfl⟩ follows)
  | @tyLam front params dot body span _ whole spans =>
      have bodyInside := CommaList.after_inside whole
      cases params with
      | single param =>
          obtain rfl | rfl : child = ident param ∨ child = term body.phrase.value := by
            simpa [children, CommaList.items, Term.tyLamMany] using member
          · exact comesFrom_ident (CommaList.single_inside whole)
          · exact comesFrom_term bodyInside
      | cons param comma rest =>
          obtain rfl | rfl : child = ident param ∨
              child = term (.tyLamMany span rest.items body.phrase.value) := by
            simpa [children, CommaList.items, Term.tyLamMany] using member
          · have inside := CommaList.cons_inside whole
            exact comesFrom_ident inside
          · obtain ⟨inner, others, items, follows⟩ := CommaList.comma_inside whole
            refine .inr ⟨?_, .tyLam _ rest dot body (CommaList.cons_rest whole) spans⟩
            rw [CommaList.items, items]
            exact .tyLam comma follows

/-- The children of a derived node come from its tokens. -/
theorem Derives.child (derives : node.Derives tokens) {child : Node}
    (member : child ∈ node.children) : node.ComesFrom tokens child := by
  cases derives with
  | statement tree =>
      cases tree with
      | assumeType keyword name | print keyword name =>
          obtain rfl := List.mem_singleton.mp member
          exact comesFrom_ident ⟨[_], [], rfl⟩
      | assumeTerm word keyword name colon type =>
          obtain rfl | rfl : child = .ident name ∨ child = .type type.phrase.value := by
            simpa [children, StatementTree.value] using member
          · exact comesFrom_ident ⟨[_], _, rfl⟩
          · exact comesFrom_type ⟨[_, _, _], [], List.append_nil _⟩
      | announce word keyword name colon type equals term =>
          obtain rfl | rfl | rfl : child = .ident name ∨ child = .type type.phrase.value ∨
              child = .term term.phrase.value := by
            simpa [children, StatementTree.value] using member
          · exact comesFrom_ident ⟨[_], _, rfl⟩
          · exact comesFrom_type ⟨[_, _, _], _, rfl⟩
          · exact comesFrom_term ⟨word.symbol.token keyword :: name.token ::
              Symbol.colon.token colon :: (type.tokens ++ [Symbol.equals.token equals]), [], by
              simp [StatementTree.tokens]⟩
      | define keyword name equals term =>
          obtain rfl | rfl : child = .ident name ∨ child = .term term.phrase.value := by
            simpa [children, StatementTree.value] using member
          · exact comesFrom_ident ⟨[_], _, rfl⟩
          · exact comesFrom_term ⟨[_, _, _], [], List.append_nil _⟩
      | reduce keyword term =>
          obtain rfl := List.mem_singleton.mp member
          exact comesFrom_term ⟨[_], [], List.append_nil _⟩
      | clear => simp [children, StatementTree.value] at member
  | type tree bare =>
      cases tree with
      | quantifier spelling keyword params dot body =>
          have binds :
              Binds (.type _) (TypeTree.quantifier spelling keyword params dot body).tokens :=
            .all [spelling.quantifier.token keyword] params dot body (by simp [TypeTree.tokens])
              (TypeTree.extent_eq (.quantifier spelling keyword params dot body))
          exact binds.child member
      | arrow domain spelling sign codomain =>
          obtain rfl | rfl : child = .type domain.phrase.value ∨
              child = .type codomain.phrase.value := by
            simpa [children, TypeTree.phrase] using member
          · exact comesFrom_type ⟨[], _, rfl⟩
          · exact comesFrom_type ⟨domain.tokens ++ [spelling.arrow.token sign], [], by
              simp [TypeTree.tokens]⟩
      | atom inner =>
          cases inner with
          | name => simp [children, TypeTree.phrase] at member
          | group => exact bare.elim
  | term tree bare =>
      cases tree with
      | lam spelling keyword params dot body =>
          have binds : Binds (.term _) (TermTree.lam spelling keyword params dot body).tokens :=
            .lam [spelling.lambda.token keyword] params dot body (by simp [TermTree.tokens])
              (TermTree.extent_eq (.lam spelling keyword params dot body))
          exact binds.child member
      | tyLam spelling keyword params dot body =>
          have binds : Binds (.term _) (TermTree.tyLam spelling keyword params dot body).tokens :=
            .tyLam [spelling.bigLambda.token keyword] params dot body (by simp [TermTree.tokens])
              (TermTree.extent_eq (.tyLam spelling keyword params dot body))
          exact binds.child member
      | application inner =>
          cases inner with
          | app function argument =>
              obtain rfl | rfl : child = .term function.phrase.value ∨
                  child = .term argument.phrase.value := by
                simpa [children, TermTree.phrase] using member
              · exact comesFrom_term ⟨[], _, rfl⟩
              · exact comesFrom_term ⟨_, [], List.append_nil _⟩
          | tyApp function openBracket argument closeBracket =>
              obtain rfl | rfl : child = .term function.phrase.value ∨
                  child = .type argument.phrase.value := by
                simpa [children, TermTree.phrase] using member
              · exact comesFrom_term ⟨[], _, rfl⟩
              · exact comesFrom_type ⟨function.tokens ++ [Symbol.openBracket.token openBracket],
                  [Symbol.closeBracket.token closeBracket], by simp [TermTree.tokens]⟩
          | atom inner =>
              cases inner with
              | name => simp [children, TermTree.phrase] at member
              | group => exact bare.elim
  | ident => simp [children] at member

/-- What continues inside a piece continues inside the whole. -/
theorem Continues.mono {part : List Token} {parent child : Node}
    (continues : parent.Continues part child) (inside : part <:+: tokens) :
    parent.Continues tokens child := by
  cases continues with
  | all comma follows => exact .all comma (follows.trans inside)
  | lam comma follows => exact .lam comma (follows.trans inside)
  | tyLam comma follows => exact .tyLam comma (follows.trans inside)

/-- A node comes from some consecutive tokens. -/
def Placed (tokens : List Token) (node : Node) : Prop :=
  ∃ part, part <:+: tokens ∧ (node.Derives part ∨ node.Binds part)

/-- Wherever a node comes from, its span is the place of tokens that are there. -/
theorem Placed.span_eq {part : List Token} (origin : node.Derives part ∨ node.Binds part) :
    node.span = extent part ∧ part ≠ [] :=
  origin.elim (fun derives => ⟨derives.span_eq, derives.tokens_ne_nil⟩)
    fun binds => ⟨binds.span_eq, binds.tokens_ne_nil⟩

/-- A child comes from tokens of its parent. -/
theorem Placed.exists_inner {parent child : Node} (placed : parent.Placed tokens)
    (member : child ∈ parent.children) :
    ∃ outer inner, outer <:+: tokens ∧ inner <:+: outer ∧ parent.span = extent outer ∧
      (child.Derives inner ∨ parent.Continues tokens child ∧ child.Binds inner) := by
  obtain ⟨outer, inside, origin⟩ := placed
  have comesFrom : parent.ComesFrom outer child :=
    origin.elim (fun derives => derives.child member) fun binds => binds.child member
  have spans := (Placed.span_eq origin).1
  obtain ⟨inner, within, derives⟩ | ⟨continues, binds⟩ := comesFrom
  · exact ⟨outer, inner, inside, within, spans, .inl derives⟩
  · exact ⟨outer, outer, inside, List.infix_refl _, spans, .inr ⟨continues.mono inside, binds⟩⟩

/-- Being placed among tokens goes down from a node to those within it. -/
theorem Within.placed {root : Node} (within : root.Within node) (placed : root.Placed tokens) :
    node.Placed tokens := by
  induction within with
  | root => exact placed
  | child _ member insideIH =>
      obtain ⟨outer, inner, outerInside, innerInside, -, origin⟩ := insideIH.exists_inner member
      exact ⟨inner, innerInside.trans outerInside, origin.imp_right And.right⟩

/-! ## Reading nodes back -/

variable {source : String} {masked : List Char}

/-- The part of the source at the span of a derived node parses to that node. -/
theorem Derives.readsBack (masks : Masks source.toList masked) (tokenizes : Tokenizes masked tokens)
    {part : List Token} (inside : part <:+: tokens) (derives : node.Derives part) :
    node.ReadsBack source := by
  have spans := derives.span_eq
  obtain ⟨text, maskedPart, slice, masksPart, lexesPart⟩ :=
    exists_slice masks tokenizes inside derives.tokens_ne_nil
  rw [← spans] at slice lexesPart
  cases derives with
  | statement tree =>
      obtain ⟨small, parsed, moved⟩ :=
        statementEntry_follows.exists_parse_of_lexes movable_statement masksPart lexesPart
      exact ⟨text, small, slice, parsed, moved⟩
  | term tree =>
      obtain ⟨small, parsed, moved⟩ :=
        termEntry_follows.exists_parse_of_lexes movable_term masksPart lexesPart
      exact ⟨text, small, slice, parsed, moved⟩
  | type tree =>
      obtain ⟨small, parsed, moved⟩ :=
        typeEntry_follows.exists_parse_of_lexes movable_type masksPart lexesPart
      exact ⟨text, small, slice, parsed, moved⟩
  | ident value =>
      obtain ⟨before, after, rfl⟩ := inside
      rw [List.append_assoc] at tokenizes
      exact slice?_token masks tokenizes

/-- The place of tokens of a source lies within the source. -/
theorem within_of_extent (masks : Masks source.toList masked) (tokenizes : Tokenizes masked tokens)
    {part : List Token} (inside : part <:+: tokens) (part_ne : part ≠ [])
    (spans : node.span = extent part) : node.span.within source = true := by
  obtain ⟨text, _, slice, -, -⟩ := exists_slice masks tokenizes inside part_ne
  rw [spans, Span.within, slice]
  rfl

end Node

/-- The tokens of a source text. -/
def sourceTokens (source : String) : List Token :=
  (TokenStream.ofChars (MaskedText.ofSource source).chars).tokens

/-- The spans of a tree are faithful to the source: each node has its place in the source,
inside the place of the node around it, and is read back from there. -/
structure Node.Faithful (source : String) (root : Node) : Prop where
  within : root.span.within source = true
  readsBack : root.ReadsBack source
  child : ∀ parent child, root.Within parent → child ∈ parent.children →
    child.span.within source = true ∧ parent.span.Contains child.span ∧
      (parent.Continues (sourceTokens source) child ∨ child.ReadsBack source)

/-- A node that is derived from tokens of a source is faithful to the source. -/
theorem Node.Derives.faithful {source : String} {masked : List Char} {root : Node}
    {tokens part : List Token} (derives : root.Derives part) (inside : part <:+: tokens)
    (masks : Masks source.toList masked) (tokenizes : Tokenizes masked tokens) :
    root.Faithful source := by
  have isTokens : sourceTokens source = tokens := by
    rw [sourceTokens, MaskedText.ofSource_eq_iff.mpr masks,
      TokenStream.ofChars_eq_iff.mpr tokenizes]
  refine ⟨within_of_extent masks tokenizes inside derives.tokens_ne_nil derives.span_eq,
    derives.readsBack masks tokenizes inside, fun parent child isWithin member => ?_⟩
  have placed := isWithin.placed ⟨part, inside, .inl derives⟩
  obtain ⟨outer, inner, outerInside, innerInside, spans, origin⟩ := placed.exists_inner member
  have innerInTokens := innerInside.trans outerInside
  obtain ⟨innerSpans, inner_ne⟩ := Placed.span_eq (origin.imp_right And.right)
  refine ⟨within_of_extent masks tokenizes innerInTokens inner_ne innerSpans, ?_, ?_⟩
  · rw [spans, innerSpans]
    exact Lexes.extent_contains tokenizes outerInside innerInside inner_ne
  · rw [isTokens]
    exact origin.symm.imp And.left fun derives => derives.readsBack masks tokenizes innerInTokens

/-- What is accepted has closed comments and the tokens of a tree. -/
theorem EntryPoint.Follows.exists_tree {ρ α : Type} {entry : EntryPoint ρ α}
    {nonterminal : Nonterminal α} (follows : entry.Follows nonterminal) {source : String}
    {value : α}
    (parsed : entry.parse source = .ok value) :
    ∃ masked tree, Masks source.toList masked ∧ Tokenizes masked (nonterminal.tokens tree) ∧
      nonterminal.value tree = value := by
  cases unclosed : (MaskedText.ofSource source).unclosed with
  | some opened => simp [EntryPoint.parse, unclosed] at parsed
  | none =>
      obtain ⟨tree, tokenizes, denotes⟩ := (follows.parse_eq_ok_iff unclosed).mp parsed
      exact ⟨_, tree, MaskedText.masks_of_closed unclosed, tokenizes, denotes⟩

/-- A statement of an optional phrase has a tree among its tokens. -/
theorem exists_statementTree {statement : Statement} {option : Option StatementTree}
    (member : statement ∈ (option.map StatementTree.value).toList) :
    ∃ tree : StatementTree, tree.value = statement ∧
      tree.tokens <:+: option.elim [] StatementTree.tokens := by
  cases option with
  | none => cases member
  | some tree => exact ⟨tree, (List.mem_singleton.mp member).symm, List.infix_refl _⟩

/-- Every statement of a program is derived from some of its tokens. -/
theorem ProgramTree.exists_statement (tree : ProgramTree) {statement : Statement}
    (member : statement ∈ tree.value) :
    ∃ inner : StatementTree, inner.value = statement ∧ inner.tokens <:+: tree.tokens := by
  induction tree with
  | last option => exact exists_statementTree member
  | cons option semicolon rest restIH =>
      obtain inFirst | inRest := List.mem_append.mp member
      · obtain ⟨inner, value, inside⟩ := exists_statementTree inFirst
        exact ⟨inner, value, inside.trans (List.prefix_append ..).isInfix⟩
      · obtain ⟨inner, value, inside⟩ := restIH inRest
        exact ⟨inner, value, inside.trans ((List.suffix_cons _ _).trans
          (List.suffix_append _ _)).isInfix⟩

/-- The spans of what is parsed are faithful to the source. -/
theorem spans_faithful_to_source (source : String) :
    (∀ ty, parseType source = .ok ty → (Node.type ty).Faithful source) ∧
    (∀ term, parseTerm source = .ok term → (Node.term term).Faithful source) ∧
    (∀ statement, parseStatement source = .ok statement →
      (Node.statement statement).Faithful source) ∧
    ∀ statements, parseProgram source = .ok statements →
      ∀ statement ∈ statements, (Node.statement statement).Faithful source := by
  refine ⟨?type, ?term, ?statement, ?program⟩
  case type =>
    intro ty parsed
    obtain ⟨masked, tree, masks, tokenizes, rfl⟩ := typeEntry_follows.exists_tree parsed
    obtain ⟨part, inside, derives⟩ := Node.exists_derives_type tree
    exact derives.faithful inside masks tokenizes
  case term =>
    intro term parsed
    obtain ⟨masked, tree, masks, tokenizes, rfl⟩ := termEntry_follows.exists_tree parsed
    obtain ⟨part, inside, derives⟩ := Node.exists_derives_term tree
    exact derives.faithful inside masks tokenizes
  case statement =>
    intro statement parsed
    obtain ⟨masked, tree, masks, tokenizes, rfl⟩ := statementEntry_follows.exists_tree parsed
    exact (Node.Derives.statement tree).faithful (List.infix_refl _) masks tokenizes
  case program =>
    intro statements parsed statement member
    obtain ⟨masked, tree, masks, tokenizes, rfl⟩ := programEntry_follows.exists_tree parsed
    obtain ⟨inner, rfl, inside⟩ := tree.exists_statement member
    exact (Node.Derives.statement inner).faithful inside masks tokenizes

/-- A definition with parentheses, comments and lists of parameters. -/
def annotated : String :=
  "Theorem k: ∀A, B (* any *). A → (B → A) = Λ A, B. λ x: A, y: (B). (x)"

/-- A statement with a comment and a λ in it is parsed with faithful spans. -/
theorem spans_faithful_to_source_annotated :
    ∃ statement, parseStatement annotated = .ok statement ∧
      (Node.statement statement).Faithful annotated := by
  have accepted : (parseStatement annotated).isOk = true := by decide +kernel
  cases parsed : parseStatement annotated with
  | error => simp [parsed, Except.isOk, Except.toBool] at accepted
  | ok statement => exact ⟨statement, rfl, (spans_faithful_to_source annotated).2.2.1 _ parsed⟩

end PolyLambda.Grammar
