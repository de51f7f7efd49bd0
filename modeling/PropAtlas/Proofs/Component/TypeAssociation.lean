import PropAtlas.Proofs.Component.DocumentOrder
import PropAtlas.Proofs.Text.Blank
import PropAtlas.Proofs.Table

/-! The types of declared props. Which type describes a component depends on the names of the types in
its file and on their order among themselves, and not on where the component stands. -/

namespace PropAtlas.Component

open PropAtlas.Syntax (Node Kind Field)
open PropAtlas.Blank (Trimmed)

/-! ### Types and their members -/

/-- A node declares a type of this name, and has its members in `body`. -/
structure DeclaresType (s : Source) (kind : Kind) (part : Field) (name : String)
    (n body : Node) : Prop where
  isType : n.kind = kind
  named : ∃ m, n.child? .name = some m ∧ m.kind = .typeName ∧ m.text s = name
  holds : n.child? part = some body

/-- The last declaration of a type of this name in a tree, wherever it is nested. -/
def LastType (s : Source) (kind : Kind) (part : Field) (name : String) (root body : Node) : Prop :=
  ∃ before n after, root.preorder = before ++ n :: after ∧ DeclaresType s kind part name n body ∧
    ∀ m ∈ after, ∀ b, ¬ DeclaresType s kind part name m b

/-- The type that describes a component: the last alias that is called by the component's name and
`Props`, or, if there is no such alias, the last interface. A type called `Props` alone describes no
component. -/
def TypeFor (s : Source) (root : Node) (component : String) (body : Node) : Prop :=
  component ≠ "" ∧
  (LastType s .typeAlias .value (component ++ propsSuffix) root body ∨
    (∀ n, n.OccursIn root → ∀ b, ¬ DeclaresType s .typeAlias .value (component ++ propsSuffix) n b) ∧
    LastType s .interfaceDeclaration .body (component ++ propsSuffix) root body)

def isQuote (c : Char) : Bool := c == '"' || c == '\''

/-- A signature of a property, which may have its name in quotes. -/
structure SignatureOf (s : Source) (name : String) (member : Node) : Prop where
  isSignature : member.kind = .propertySignature
  named : ∃ m, member.child? .name = some m ∧ Trimmed isQuote (m.text s) name

/-- The type in an annotation: what comes after the colon, without blanks at its ends. -/
def Annotates (text type : String) : Prop :=
  ∃ (colons rest : List Char) (inner : String), text.toList = colons ++ rest ∧
    (∀ c ∈ colons, c = ':') ∧ (∀ c ∈ rest.head?, c ≠ ':') ∧
    Trimmed Blank.isBlank (String.ofList rest) inner ∧ type = if inner = "" then "any" else inner

/-- What a member says about the type of its property. -/
def TypedAs (s : Source) (member : Node) (type : String) : Prop :=
  (member.child? .type = none ∧ type = "any") ∨
    ∃ m, member.child? .type = some m ∧ Annotates (m.text s) type

/-- The type of the last signature of a property among the direct members of a type. -/
def MemberType (s : Source) (body : Node) (name type : String) : Prop :=
  ∃ before m after, body.children = before ++ m :: after ∧ SignatureOf s name m ∧ TypedAs s m type ∧
    ∀ k ∈ after, ¬ SignatureOf s name k

section Types

variable {s : Source} {root body n : Node} {component name type text : String}

theorem bareName_eq_iff : bareName text = name ↔ Trimmed isQuote text name :=
  Blank.stripOf_eq_iff

theorem annotatedType_eq_iff : annotatedType text = type ↔ Annotates text type := by
  have hcolon (c : Char) : (c == ':') = true ↔ c = ':' := beq_iff_eq
  constructor
  · rintro rfl
    obtain ⟨colons, htext, hcolons, hrest⟩ :=
      Blank.dropWhile_eq_iff.mp (rfl : text.toList.dropWhile (· == ':') = _)
    refine ⟨colons, _, _, htext, fun c hc => (hcolon c).mp (hcolons c hc), ?_,
      Blank.stripOf_eq_iff.mp rfl, ?_⟩
    · intro c hc
      exact ne_of_beq_false (hrest c hc)
    · rw [annotatedType]
      simp only [String.isEmpty_iff]
      rfl
  · rintro ⟨colons, rest, inner, htext, hcolons, hrest, hinner, rfl⟩
    have hdrop : text.toList.dropWhile (· == ':') = rest :=
      Blank.dropWhile_eq_iff.mpr ⟨colons, htext, fun c hc => (hcolon c).mpr (hcolons c hc),
        fun c hc => beq_false_of_ne (hrest c hc)⟩
    have hstrip : Blank.strip (String.ofList rest) = inner := Blank.stripOf_eq_iff.mpr hinner
    rw [annotatedType, hdrop, hstrip]
    simp only [String.isEmpty_iff]

theorem typedAs_iff :
    TypedAs s n type ↔
      ((n.child? .type).map (fun t => annotatedType (t.text s))).getD "any" = type := by
  rw [TypedAs]
  cases n.child? .type with
  | none => simp [eq_comm]
  | some m => simp [annotatedType_eq_iff]

theorem propertyType_eq_some_iff :
    propertyType s n = some (name, type) ↔ SignatureOf s name n ∧ TypedAs s n type := by
  rw [propertyType, typedAs_iff]
  split_ifs with hk
  · rw [Option.map_eq_some_iff]
    constructor
    · rintro ⟨m, hm, he⟩
      obtain ⟨hname, htype⟩ := Prod.mk.inj he
      exact ⟨⟨hk, m, hm, bareName_eq_iff.mp hname⟩, htype⟩
    · rintro ⟨⟨_, m, hm, hname⟩, htype⟩
      exact ⟨m, hm, Prod.ext (bareName_eq_iff.mpr hname) htype⟩
  · constructor
    · intro h
      cases h
    · rintro ⟨h, _⟩
      exact absurd h.isSignature hk

theorem get?_propertyTypes :
    (propertyTypes s body).get? name = some type ↔ MemberType s body name type := by
  -- A later signature hides an earlier one whatever its type is, since every signature has a type.
  have hlater (k : Node) : (∀ t, propertyType s k ≠ some (name, t)) ↔ ¬ SignatureOf s name k := by
    constructor
    · intro h hk
      exact h _ (propertyType_eq_some_iff.mpr ⟨hk, typedAs_iff.mpr rfl⟩)
    · intro h t ht
      exact h (propertyType_eq_some_iff.mp ht).1
  rw [propertyTypes, Table.get?_ofList_filterMap, MemberType]
  simp only [propertyType_eq_some_iff, hlater, and_assoc]

theorem get?_propertyTypes_eq_none_iff :
    (propertyTypes s body).get? name = none ↔ ∀ m ∈ body.children, ¬ SignatureOf s name m := by
  rw [propertyTypes, Table.get?_ofList_eq_none_iff]
  constructor
  · intro h m hm hsig
    have hentry := propertyType_eq_some_iff.mpr ⟨hsig, typedAs_iff.mpr rfl⟩
    exact h _ (List.mem_filterMap.mpr ⟨m, hm, hentry⟩) rfl
  · rintro h ⟨k, type⟩ he rfl
    obtain ⟨m, hm, he⟩ := List.mem_filterMap.mp he
    exact h m hm (propertyType_eq_some_iff.mp he).1

theorem describedBy_eq_some_iff :
    describedBy text = some component ↔ component ≠ "" ∧ text = component ++ propsSuffix := by
  rw [describedBy]
  simp only [Bool.and_eq_true, decide_eq_true_iff, List.isSuffixOf_iff_suffix]
  constructor
  · intro h
    split_ifs at h with hs
    obtain ⟨hlong, front, hfront⟩ := hs
    have hlength := congrArg List.length hfront
    rw [List.length_append] at hlength
    -- What is cut off is as long as the suffix, so that the front is left.
    have htake : text.toList.take (text.toList.length - propsSuffix.toList.length) = front := by
      rw [← hfront, List.length_append, Nat.add_sub_cancel, List.take_left]
    rw [htake] at h
    obtain rfl := Option.some.inj h
    refine ⟨?_, ?_⟩
    · intro hempty
      have hnil : front = [] := by simpa using hempty
      rw [hnil] at hlength
      simp only [List.length_nil] at hlength
      omega
    · rw [← String.toList_inj, String.toList_append, String.toList_ofList, hfront]
  · rintro ⟨hne, rfl⟩
    have hpos : 0 < component.toList.length := by
      apply List.length_pos_of_ne_nil
      simpa using hne
    rw [String.toList_append, List.length_append, if_pos ⟨by omega, List.suffix_append _ _⟩,
      Nat.add_sub_cancel, List.take_left, String.ofList_toList]

/-! ### The table of interfaces -/

/-- What the table says of a component that is described by a type. -/
def described (s : Source) (component : String) (body : Node) : PropsInterface :=
  ⟨component ++ propsSuffix, component, propertyTypes s body⟩

/-- The entry that a node of a kind adds to the table. -/
def entryOf (s : Source) (kind : Kind) (part : Field) (n : Node) : Option (String × PropsInterface) :=
  if n.kind = kind then interfaceOf s (n.child? .name) (n.child? part) else none

variable {kind : Kind} {part : Field} {i : PropsInterface}

theorem interfaces_eq (s : Source) (root : Node) :
    interfaces s root = Table.ofList
      (root.preorder.filterMap (entryOf s .interfaceDeclaration .body) ++
        root.preorder.filterMap (entryOf s .typeAlias .value)) := by
  rw [interfaces, List.filterMap_filter, List.filterMap_filter]
  simp only [decide_eq_true_iff]
  rfl

theorem entryOf_eq_some_iff :
    entryOf s kind part n = some (component, i) ↔ component ≠ "" ∧
      ∃ body, DeclaresType s kind part (component ++ propsSuffix) n body ∧
        i = described s component body := by
  rw [entryOf]
  split_ifs with hk
  · constructor
    · intro h
      obtain ⟨m, hm, h⟩ := Option.bind_eq_some_iff.mp h
      obtain ⟨body, hbody, h⟩ := Option.bind_eq_some_iff.mp h
      obtain ⟨c, hc, h⟩ := Option.bind_eq_some_iff.mp h
      obtain ⟨hm, hname⟩ := Option.filter_eq_some_iff.mp hm
      obtain ⟨hne, htext⟩ := describedBy_eq_some_iff.mp hc
      obtain ⟨rfl, rfl⟩ := Prod.mk.inj (Option.some.inj h)
      exact ⟨hne, body, ⟨hk, ⟨m, hm, beq_iff_eq.mp hname, htext⟩, hbody⟩, by rw [described, htext]⟩
    · rintro ⟨hne, body, ⟨_, ⟨m, hm, hname, htext⟩, hbody⟩, rfl⟩
      have hfilter : (n.child? .name).filter (fun m => m.kind == .typeName) = some m :=
        Option.filter_eq_some_iff.mpr ⟨hm, beq_iff_eq.mpr hname⟩
      have hcomponent : describedBy (component ++ propsSuffix) = some component :=
        describedBy_eq_some_iff.mpr ⟨hne, rfl⟩
      simp only [interfaceOf, hfilter, hbody, hcomponent, htext, described, Option.bind_eq_bind,
        Option.bind_some, Option.pure_def]
  · constructor
    · intro h
      cases h
    · rintro ⟨_, body, hd, _⟩
      exact absurd hd.isType hk

theorem get?_entries :
    (Table.ofList (root.preorder.filterMap (entryOf s kind part))).get? component = some i ↔
      component ≠ "" ∧ ∃ body, LastType s kind part (component ++ propsSuffix) root body ∧
        i = described s component body := by
  rw [Table.get?_ofList_filterMap]
  constructor
  · rintro ⟨before, n, after, htree, hn, hafter⟩
    obtain ⟨hne, body, hbody, hi⟩ := entryOf_eq_some_iff.mp hn
    refine ⟨hne, body, ⟨before, n, after, htree, hbody, ?_⟩, hi⟩
    intro m hm b hb
    exact hafter m hm _ (entryOf_eq_some_iff.mpr ⟨hne, b, hb, rfl⟩)
  · rintro ⟨hne, body, ⟨before, n, after, htree, hbody, hafter⟩, hi⟩
    refine ⟨before, n, after, htree, entryOf_eq_some_iff.mpr ⟨hne, body, hbody, hi⟩, ?_⟩
    intro m hm j hj
    obtain ⟨_, b, hb, _⟩ := entryOf_eq_some_iff.mp hj
    exact hafter m hm b hb

theorem get?_entries_eq_none_iff (hne : component ≠ "") :
    (Table.ofList (root.preorder.filterMap (entryOf s kind part))).get? component = none ↔
      ∀ n, n.OccursIn root → ∀ b, ¬ DeclaresType s kind part (component ++ propsSuffix) n b := by
  rw [Table.get?_ofList_eq_none_iff]
  constructor
  · intro h n hn b hb
    have hentry := entryOf_eq_some_iff.mpr ⟨hne, b, hb, rfl⟩
    exact h _ (List.mem_filterMap.mpr ⟨n, Node.mem_preorder_iff.mpr hn, hentry⟩) rfl
  · rintro h ⟨c, i⟩ he rfl
    obtain ⟨n, hn, he⟩ := List.mem_filterMap.mp he
    obtain ⟨_, b, hb, _⟩ := entryOf_eq_some_iff.mp he
    exact h n (Node.mem_preorder_iff.mp hn) b hb

/-- The table holds, for each component, the type that describes it. -/
theorem get?_interfaces :
    (interfaces s root).get? component = some i ↔
      ∃ body, TypeFor s root component body ∧ i = described s component body := by
  -- Aliases are put into the table after all interfaces, and so hide them.
  rw [interfaces_eq, Table.get?_ofList_append, Option.or_eq_some_iff, get?_entries, get?_entries]
  constructor
  · rintro (⟨hne, body, hbody, hi⟩ | ⟨hnone, hne, body, hbody, hi⟩)
    · exact ⟨body, ⟨hne, Or.inl hbody⟩, hi⟩
    · exact ⟨body, ⟨hne, Or.inr ⟨(get?_entries_eq_none_iff hne).mp hnone, hbody⟩⟩, hi⟩
  · rintro ⟨body, ⟨hne, hbody | ⟨hnone, hbody⟩⟩, hi⟩
    · exact Or.inl ⟨hne, body, hbody, hi⟩
    · exact Or.inr ⟨(get?_entries_eq_none_iff hne).mpr hnone, hne, body, hbody, hi⟩

end Types

/-! ### Declared props -/

section DeclaredProps

variable {ctx : Context} {component : String}

theorem type_of_mem_declaredProps {function : Node} {u : PropUsage}
    (h : u ∈ declaredProps ctx component function) :
    u.type = if u.spread then none else (ctx.types component).get? u.name := by
  obtain ⟨_, _, _, rfl⟩ := eq_propAt_of_mem_declaredProps h
  rfl

variable {s : Source} {root : Node} {name type : String}

theorem get?_types (htable : ctx.interfaces = interfaces s root) :
    (ctx.types component).get? name = some type ↔
      ∃ body, TypeFor s root component body ∧ MemberType s body name type := by
  rw [Context.types, htable]
  constructor
  · intro h
    cases hget : (interfaces s root).get? component with
    | none =>
      rw [hget] at h
      cases h
    | some i =>
      obtain ⟨body, hbody, rfl⟩ := get?_interfaces.mp hget
      rw [hget] at h
      exact ⟨body, hbody, get?_propertyTypes.mp h⟩
  · rintro ⟨body, hbody, htype⟩
    rw [get?_interfaces.mpr ⟨body, hbody, rfl⟩]
    exact get?_propertyTypes.mpr htype

theorem get?_types_eq_none_iff (htable : ctx.interfaces = interfaces s root) :
    (ctx.types component).get? name = none ↔
      ∀ body, TypeFor s root component body → ∀ m ∈ body.children, ¬ SignatureOf s name m := by
  rw [Context.types, htable]
  constructor
  · intro h body hbody
    rw [get?_interfaces.mpr ⟨body, hbody, rfl⟩] at h
    exact get?_propertyTypes_eq_none_iff.mp h
  · intro h
    cases hget : (interfaces s root).get? component with
    | none => rfl
    | some i =>
      obtain ⟨body, hbody, rfl⟩ := get?_interfaces.mp hget
      exact get?_propertyTypes_eq_none_iff.mpr (h body hbody)

theorem interface_eq_iff :
    (((interfaces s root).get? component).map (·.name) = some (component ++ propsSuffix) ↔
      ∃ body, TypeFor s root component body) ∧
    (((interfaces s root).get? component).map (·.name) = none ↔
      ∀ body, ¬ TypeFor s root component body) := by
  cases hget : (interfaces s root).get? component with
  | none =>
    have hno (body : Node) : ¬ TypeFor s root component body := by
      intro hbody
      rw [get?_interfaces.mpr ⟨body, hbody, rfl⟩] at hget
      cases hget
    simp [hno]
  | some i =>
    obtain ⟨body, hbody, rfl⟩ := get?_interfaces.mp hget
    have hsome : ∃ body, TypeFor s root component body := ⟨body, hbody⟩
    simp [described, hsome]

end DeclaredProps

/-- A declaration has its interface and the types of its props from the type that describes its
component. -/
structure TypedByName (s : Source) (root : Node) (d : Declaration) : Prop where
  interface : d.interface = some (d.component ++ propsSuffix) ↔
    ∃ body, TypeFor s root d.component body
  undescribed : d.interface = none ↔ ∀ body, ¬ TypeFor s root d.component body
  rest : ∀ u ∈ d.props, u.spread = true → u.type = none
  typed : ∀ u ∈ d.props, u.spread = false → ∀ type, u.type = some type ↔
    ∃ body, TypeFor s root d.component body ∧ MemberType s body u.name type
  untyped : ∀ u ∈ d.props, u.spread = false → (u.type = none ↔
    ∀ body, TypeFor s root d.component body → ∀ m ∈ body.children, ¬ SignatureOf s u.name m)

theorem typedByName_of_declarationAt? {ctx : Context} {s : Source} {root n : Node} {d : Declaration}
    (htable : ctx.interfaces = interfaces s root) (h : declarationAt? ctx n = some d) :
    TypedByName s root d := by
  obtain ⟨component, function, rfl⟩ := eq_declaredAt_of_declarationAt? h
  have hinterface : (declaredAt ctx component n function).interface =
      ((interfaces s root).get? component).map (·.name) := by
    rw [← htable]
    rfl
  have hdirect (u : PropUsage) (hu : u ∈ declaredProps ctx component function)
      (hspread : u.spread = false) : u.type = (ctx.types component).get? u.name := by
    rw [type_of_mem_declaredProps hu, hspread]
    rfl
  refine ⟨?_, ?_, ?_, ?_, ?_⟩
  · rw [hinterface]
    exact interface_eq_iff.1
  · rw [hinterface]
    exact interface_eq_iff.2
  · intro u hu hspread
    rw [type_of_mem_declaredProps hu, if_pos hspread]
  · intro u hu hspread type
    rw [hdirect u hu hspread]
    exact get?_types htable
  · intro u hu hspread
    rw [hdirect u hu hspread]
    exact get?_types_eq_none_iff htable

/-- With types, every declaration has its interface and the types of its props from the type that
describes its component in the whole tree, wherever the two stand. Nothing that is passed to an element
has a type. -/
theorem extract_types_by_name (s : Source) (file : String) (root : Node) (o : Selection)
    (htypes : o.types = true) :
    (∀ d ∈ (extract s file root o none).declarations, TypedByName s root d) ∧
    (∀ t ∈ (extract s file root o none).sites, ∀ u ∈ t.props, u.type = none) ∧
    ∀ u ∈ (extract s file root o none).usages, u.type = none ∨
      ∃ d ∈ (extract s file root o none).declarations, u ∈ d.props := by
  refine ⟨?_, fun t ht u hu => type_of_mem_site ht hu, ?_⟩
  · intro d hd
    have htable : (contextOf s file root o none).interfaces = interfaces s root := if_pos htypes
    rw [declarations_extract] at hd
    obtain ⟨n, _, hn⟩ := List.mem_filterMap.mp hd
    exact typedByName_of_declarationAt? htable hn
  · intro u hu
    obtain ⟨f, hf, hfu⟩ := List.mem_flatMap.mp hu
    cases f with
    | declaration d => exact Or.inr ⟨d, List.mem_filterMap.mpr ⟨_, hf, rfl⟩, hfu⟩
    | site t =>
      have ht : t ∈ (extract s file root o none).sites := List.mem_filterMap.mpr ⟨_, hf, rfl⟩
      exact Or.inl (type_of_mem_site ht (List.mem_of_mem_filter hfu))

/-- A component before the types that could describe it. The alias hides the interface, and the second
signature of `a` hides the first. -/
def describedLater : Source :=
  Source.ofList ("function A(\x7b 'b-c': b, a, e, ...r \x7d) \x7b\x7d\n" ++
    "type AProps = \x7b a: U; \"b-c\": T[]; a \x7d;\n" ++
    "interface AProps \x7b e: V \x7d\n").toList

theorem extract_types_by_name_later :
    ∃ root d, Syntax.parse .tsx describedLater = some root ∧
      d ∈ (extract describedLater "f" root {} none).declarations ∧
      d.interface = some "AProps" ∧
      d.props.map (fun u => (u.name, u.type)) =
        [("b-c", some "T[]"), ("a", some "any"), ("e", none), (restProp, none)] ∧
      ∃ body, TypeFor describedLater root "A" body ∧ MemberType describedLater body "b-c" "T[]" := by
  have hparse : (Syntax.parse .tsx describedLater).any (fun root =>
      (extract describedLater "f" root {} none).declarations.any (fun d => decide (
        d.component = "A" ∧ d.interface = some "AProps" ∧
        d.props.map (fun u => (u.name, u.type)) =
          [("b-c", some "T[]"), ("a", some "any"), ("e", none), (restProp, none)] ∧
        ∃ u ∈ d.props, u.spread = false ∧ u.name = "b-c" ∧ u.type = some "T[]"))) = true := by
    decide +kernel
  obtain ⟨root, hroot, h⟩ := (Option.any_eq_true _ _).mp hparse
  obtain ⟨d, hd, h⟩ := List.any_eq_true.mp h
  obtain ⟨hcomponent, hinterface, hprops, u, hu, hspread, hname, htype⟩ := of_decide_eq_true h
  obtain ⟨hdeclared, _⟩ := extract_types_by_name describedLater "f" root {} rfl
  have hmember := (hdeclared d hd).typed u hu hspread "T[]"
  rw [hcomponent, hname] at hmember
  exact ⟨root, d, hroot, hd, hinterface, hprops, hmember.mp htype⟩

end PropAtlas.Component
