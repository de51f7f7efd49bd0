import PropAtlas.Proofs.Component.DocumentOrder

/-! The props of a component whose parameter is a plain name are those that its body reads from it.
Each is found once, where it is read first, and the places where they are read first are in document
order.

A body is walked like every other tree, so that a read counts wherever it is nested. -/

namespace PropAtlas.Component
open PropAtlas.Syntax (Node)
open scoped List

/-! ### Reads -/

/-- A member expression that reads a property from the value called `subject`. -/
def Reads (s : Source) (subject name : String) (n : Node) : Prop :=
  n.kind = .member ∧ ∃ object ∈ n.child? .object, ∃ property ∈ n.child? .property,
    (object.kind = .identifier ∧ object.text s = subject) ∧
      property.kind = .propertyName ∧ property.text s = name

/-- Where a node starts, as it is reported. -/
def position (s : Source) (n : Node) : ℤ ×ₗ ℤ :=
  toLex (((n.location s).line : ℤ), ((n.location s).column : ℤ))

/-- Where a prop is reported. -/
def reported (u : PropUsage) : ℤ ×ₗ ℤ := toLex (u.line, u.column)

/-- A tree laid out over a source: every node holds its children in order and apart, and the tree ends
inside the source. -/
structure LaidOver (s : Source) (body : Node) : Prop where
  laidOut : ∀ n : Node, n.OccursIn body → n.LaidOut
  inSource : body.span.stop ≤ s.size

/-- Member expressions start with their objects, and identifiers have no parts. -/
structure ObjectsLead (body : Node) : Prop where
  objects : ∀ n : Node, n.OccursIn body → n.kind = .member →
    ∀ c ∈ n.children.head?, c.field = some .object
  identifiers : ∀ n : Node, n.OccursIn body → n.kind = .identifier → n.children = []

instance (s : Source) (body : Node) : Decidable (LaidOver s body) :=
  decidable_of_iff ((∀ n ∈ body.preorder, n.LaidOut) ∧ body.span.stop ≤ s.size)
    ⟨fun h => ⟨fun n hn => h.1 n (Node.mem_preorder_iff.mpr hn), h.2⟩,
      fun h => ⟨fun n hn => h.laidOut n (Node.mem_preorder_iff.mp hn), h.inSource⟩⟩

instance (body : Node) : Decidable (ObjectsLead body) :=
  decidable_of_iff
    ((∀ n ∈ body.preorder, n.kind = .member → ∀ c ∈ n.children.head?, c.field = some .object) ∧
      ∀ n ∈ body.preorder, n.kind = .identifier → n.children = [])
    ⟨fun h => ⟨fun n hn => h.1 n (Node.mem_preorder_iff.mpr hn),
        fun n hn => h.2 n (Node.mem_preorder_iff.mpr hn)⟩,
      fun h => ⟨fun n hn => h.objects n (Node.mem_preorder_iff.mp hn),
        fun n hn => h.identifiers n (Node.mem_preorder_iff.mp hn)⟩⟩

theorem accessed?_eq_some_iff {s : Source} {subject name : String} {n : Node} :
    accessed? s subject n = some name ↔ Reads s subject name n := by
  by_cases hk : n.kind = .member
  · cases ho : n.child? .object with
    | none => simp [accessed?, Reads, hk, ho]
    | some object =>
      cases hp : n.child? .property with
      | none => simp [accessed?, Reads, hk, ho, hp]
      | some property => simp [accessed?, Reads, hk, ho, hp, and_assoc]
  · simp [accessed?, Reads, hk]

/-- The prop that a node reads. -/
def readAt? (ctx : Context) (component subject : String) (n : Node) : Option PropUsage :=
  (accessed? ctx.source subject n).map (fun name =>
    { ctx.usageAt n component name with type := (ctx.types component).get? name })

theorem readAt?_eq_some {ctx : Context} {component subject : String} {n : Node} {u : PropUsage}
    (h : readAt? ctx component subject n = some u) :
    Reads ctx.source subject u.name n ∧ u.line = (n.location ctx.source).line ∧
      u.column = (n.location ctx.source).column := by
  obtain ⟨name, hname, rfl⟩ := Option.map_eq_some_iff.mp h
  exact ⟨accessed?_eq_some_iff.mp hname, rfl, rfl⟩

theorem exists_readAt? (ctx : Context) (component : String) {subject name : String} {n : Node}
    (h : Reads ctx.source subject name n) :
    ∃ u, readAt? ctx component subject n = some u ∧ u.name = name := by
  rw [readAt?, accessed?_eq_some_iff.mpr h]
  exact ⟨_, rfl, rfl⟩

theorem accessProps_eq {ctx : Context} (hall : ctx.selection.prop = none) (component subject : String)
    (body : Node) :
    accessProps ctx component subject body =
      firstOfEach (body.preorder.filterMap (readAt? ctx component subject)) [] := by
  rw [accessProps, Node.walk_eq_preorder, Selection.wantsProp_eq_admitsProp]
  congr 1
  apply List.filterMap_congr
  intro n _
  cases hn : accessed? ctx.source subject n with
  | none => simp [readAt?, hn]
  | some name => simp [readAt?, hn, admitsProp_of_none hall]

/-! ### The first of each name -/

section FirstOfEach

variable {us : List PropUsage} {seen : List String} {u v : PropUsage}

theorem firstOfEach_sublist (us : List PropUsage) (seen : List String) :
    firstOfEach us seen <+ us := by
  induction us generalizing seen with
  | nil => exact .slnil
  | cons w us ih =>
    rw [firstOfEach]
    split_ifs
    · exact (ih seen).cons w
    · exact (ih _).cons_cons w

theorem mem_names_firstOfEach {name : String} :
    name ∈ (firstOfEach us seen).map (·.name) ↔ name ∈ us.map (·.name) ∧ name ∉ seen := by
  induction us generalizing seen with
  | nil => simp [firstOfEach]
  | cons w us ih =>
    by_cases hw : w.name ∈ seen
    · have hskip : firstOfEach (w :: us) seen = firstOfEach us seen := by simp [firstOfEach, hw]
      rw [hskip, ih, List.map_cons, List.mem_cons]
      constructor
      · rintro ⟨hus, hseen⟩
        exact ⟨Or.inr hus, hseen⟩
      · rintro ⟨rfl | hus, hseen⟩
        · exact absurd hw hseen
        · exact ⟨hus, hseen⟩
    · have hkeep : firstOfEach (w :: us) seen = w :: firstOfEach us (w.name :: seen) := by
        simp [firstOfEach, hw]
      rw [hkeep, List.map_cons, List.map_cons, List.mem_cons, List.mem_cons, ih, List.mem_cons]
      by_cases hname : name = w.name
      · simp [hname, hw]
      · simp [hname]

theorem nodup_names_firstOfEach (us : List PropUsage) (seen : List String) :
    ((firstOfEach us seen).map (·.name)).Nodup := by
  induction us generalizing seen with
  | nil => exact List.nodup_nil
  | cons w us ih =>
    rw [firstOfEach]
    split_ifs
    · exact ih seen
    · rw [List.map_cons, List.nodup_cons]
      refine ⟨?_, ih _⟩
      intro hw
      exact (mem_names_firstOfEach.mp hw).2 List.mem_cons_self

/-- In a list that is in order, an entry that is kept comes before all others of its name. -/
theorem rel_of_mem_firstOfEach {R : PropUsage → PropUsage → Prop} (hR : us.Pairwise R)
    (hu : u ∈ firstOfEach us seen) (hv : v ∈ us) (hname : v.name = u.name) : u = v ∨ R u v := by
  induction us generalizing seen with
  | nil => exact absurd hv List.not_mem_nil
  | cons w us ih =>
    obtain ⟨hw, hus⟩ := List.pairwise_cons.mp hR
    have hnew : u.name ∉ seen := (mem_names_firstOfEach.mp (List.mem_map_of_mem hu)).2
    rw [firstOfEach] at hu
    split_ifs at hu with hseen
    · -- The head is passed over, since its name was seen, and that of `u` was not.
      have hvus : v ∈ us := by
        refine (List.mem_cons.mp hv).resolve_left ?_
        rintro rfl
        exact hnew (hname ▸ List.contains_iff_mem.mp hseen)
      exact ih hus hu hvus
    · rcases List.mem_cons.mp hu with rfl | hu
      · exact (List.mem_cons.mp hv).imp Eq.symm (hw v)
      · have hfresh : u.name ∉ w.name :: seen :=
          (mem_names_firstOfEach.mp (List.mem_map_of_mem hu)).2
        have hvus : v ∈ us := by
          refine (List.mem_cons.mp hv).resolve_left ?_
          rintro rfl
          exact hfresh (hname ▸ List.mem_cons_self)
        exact ih hus hu hvus

end FirstOfEach

/-! ### Order -/

theorem start_lt_stop_of_text {s : Source} {n : Node} (h : n.text s ≠ "") :
    n.span.start < n.span.stop := by
  by_contra hle
  apply h
  have hslice : s.slice n.span.start n.span.stop = [] := by
    rw [Source.slice, Array.extract_empty_of_stop_le_start (Nat.le_of_not_lt hle)]
  rw [Node.text, Source.text, hslice]

/-- A read covers the name that it reads from. -/
theorem object_of_reads {s : Source} {body n : Node} (h : LaidOver s body) (hn : n.OccursIn body)
    {subject : String} (hsubject : subject ≠ "") (hr : ∃ name, Reads s subject name n) :
    ∃ object ∈ n.children, n.child? .object = some object ∧ object.kind = .identifier ∧
      n.span.start ≤ object.span.start ∧ object.span.start < object.span.stop ∧
      object.span.stop ≤ n.span.stop := by
  obtain ⟨_, _, object, hobject, _, _, ⟨hid, htext⟩, _⟩ := hr
  have hmem : object ∈ n.children := List.mem_of_find?_eq_some hobject
  have hlt : object.span.start < object.span.stop := start_lt_stop_of_text (htext ▸ hsubject)
  obtain ⟨hstart, hstop⟩ := (h.laidOut n hn).inside object hmem
  exact ⟨object, hmem, hobject, hid, hstart, hlt, hstop⟩

theorem nonempty_of_reads {s : Source} {body : Node} (h : LaidOver s body) {subject : String}
    (hsubject : subject ≠ "") (n : Node) (hn : n.OccursIn body)
    (hr : ∃ name, Reads s subject name n) : n.span.start < n.span.stop := by
  obtain ⟨object, _, _, _, hstart, hlt, hstop⟩ := object_of_reads h hn hsubject hr
  omega

/-- A member expression with an object has it as its first child. -/
theorem children_of_object {body n object : Node} (h : ObjectsLead body) (hn : n.OccursIn body)
    (hk : n.kind = .member) (hobject : n.child? .object = some object) :
    ∃ rest, n.children = object :: rest := by
  have hfirst := h.objects n hn hk
  rw [Node.child?] at hobject
  cases hc : n.children with
  | nil =>
    rw [hc] at hobject
    cases hobject
  | cons c rest =>
    rw [hc] at hobject hfirst
    rw [List.find?_cons_of_pos (by simp [hfirst c rfl])] at hobject
    exact ⟨rest, congrArg (· :: rest) (Option.some.inj hobject)⟩

/-- What is nested in a read comes after the name that it reads from. -/
theorem leading_reads {s : Source} {body : Node} (h : LaidOver s body) (hlead : ObjectsLead body)
    {subject : String} (hsubject : subject ≠ "") :
    Node.Leading (fun n => ∃ name, Reads s subject name n) body := by
  refine ⟨nonempty_of_reads h hsubject, ?_⟩
  intro n m hn hr hm hrm
  obtain ⟨object, _, hobject, hid, hstart, hlt, _⟩ := object_of_reads h hn hsubject hr
  obtain ⟨_, hk, _⟩ := hr
  obtain ⟨rest, hrest⟩ := children_of_object hlead hn hk hobject
  obtain ⟨c, hc, hmc⟩ := hm
  have hin : c.OccursIn body := Node.OccursIn.trans (.child hc .root) hn
  rw [hrest] at hc
  rcases List.mem_cons.mp hc with rfl | hc
  · -- The object is an identifier, and no part of it reads anything.
    cases hmc with
    | root =>
      obtain ⟨_, hkm, _⟩ := hrm
      rw [hid] at hkm
      cases hkm
    | child hp _ =>
      rw [hlead.identifiers _ hin hid] at hp
      exact absurd hp List.not_mem_nil
  · have hordered := (h.laidOut n hn).ordered
    rw [hrest] at hordered
    have hafter : object.span.stop ≤ c.span.start := (List.pairwise_cons.mp hordered).1 c hc
    have hspan := Node.span_of_occursIn (fun k hk => h.laidOut k (hk.trans hin)) hmc
    omega

theorem position_le {s : Source} {n m : Node} (hstart : n.span.start ≤ m.span.start)
    (hm : m.span.start ≤ s.size) : position s n ≤ position s m := by
  have hrank : (n.location s).rank ≤ (m.location s).rank := s.rank_location_le hstart hm
  rcases Prod.Lex.toLex_le_toLex.mp hrank with hline | ⟨hline, hcolumn⟩
  · exact Prod.Lex.toLex_le_toLex.mpr (Or.inl (Int.ofNat_lt.mpr hline))
  · exact Prod.Lex.toLex_le_toLex.mpr (Or.inr ⟨congrArg Int.ofNat hline, Int.ofNat_le.mpr hcolumn⟩)

/-! ### Props -/

section Props

variable {ctx : Context} {component subject : String} {body : Node}

theorem reported_of_readAt? {n : Node} {u : PropUsage}
    (h : readAt? ctx component subject n = some u) : reported u = position ctx.source n := by
  obtain ⟨_, hline, hcolumn⟩ := readAt?_eq_some h
  rw [reported, position, hline, hcolumn]

/-- The reads of a body are met in the order in which they stand. -/
theorem reads_nondecreasing (h : LaidOver ctx.source body) (hsubject : subject ≠ "") :
    (body.preorder.filterMap (readAt? ctx component subject)).Pairwise
      (fun u v => reported u ≤ reported v) := by
  rw [List.pairwise_filterMap]
  refine (Node.preorder_starts_le h.laidOut (nonempty_of_reads h hsubject)).imp_of_mem ?_
  intro n m _ hm hstart u hu v hv
  have hn : ∃ name, Reads ctx.source subject name n := ⟨u.name, (readAt?_eq_some hu).1⟩
  have hr : ∃ name, Reads ctx.source subject name m := ⟨v.name, (readAt?_eq_some hv).1⟩
  have hm : m.OccursIn body := Node.mem_preorder_iff.mp hm
  have hlt := nonempty_of_reads h hsubject m hm hr
  have hstop := (Node.span_of_occursIn h.laidOut hm).2
  have hsize := h.inSource
  rw [reported_of_readAt? hu, reported_of_readAt? hv]
  exact position_le (hstart hn hr) (by omega)

/-- No two reads stand at one place if the reads nested in a read come after its object. -/
theorem reads_increasing (h : LaidOver ctx.source body) (hlead : ObjectsLead body)
    (hsubject : subject ≠ "") :
    (body.preorder.filterMap (readAt? ctx component subject)).Pairwise
      (fun u v => reported u < reported v) := by
  apply locations_increasing h.laidOut h.inSource (leading_reads h hlead hsubject)
  intro n u hu
  obtain ⟨hread, hline, hcolumn⟩ := readAt?_eq_some hu
  exact ⟨⟨u.name, hread⟩, hline, hcolumn⟩

theorem declaredProps_of_identifier (hall : ctx.selection.prop = none) {function parameter : Node}
    (hparameter : firstParameter function = some parameter) (hname : parameter.kind = .identifier)
    (hbody : function.child? .body = some body) :
    declaredProps ctx component function = firstOfEach
      (body.preorder.filterMap (readAt? ctx component (parameter.text ctx.source))) [] := by
  rw [← accessProps_eq hall, declaredProps, hparameter]
  simp only [hname, hbody, Option.map_some, Option.getD_some]

theorem mem_reads_iff {u : PropUsage} :
    u ∈ body.preorder.filterMap (readAt? ctx component subject) ↔
      ∃ n, n.OccursIn body ∧ readAt? ctx component subject n = some u := by
  simp only [List.mem_filterMap, Node.mem_preorder_iff]

end Props

/-- If the parameter of a function is a plain name, its props are what the body reads from it: no name
twice, and every property that is read anywhere in the body. In a body that is laid out over a source,
each is found where it is read first, in the order of lines and columns. No two are at one place if
member expressions start with their objects. -/
theorem declaredProps_first_reads {ctx : Context} (hall : ctx.selection.prop = none)
    (component : String) {function parameter body : Node}
    (hparameter : firstParameter function = some parameter) (hname : parameter.kind = .identifier)
    (hsubject : parameter.text ctx.source ≠ "") (hbody : function.child? .body = some body) :
    let props := declaredProps ctx component function
    let reads (name : String) (n : Node) : Prop :=
      n.OccursIn body ∧ Reads ctx.source (parameter.text ctx.source) name n
    (props.map (·.name)).Nodup ∧
    (∀ name, name ∈ props.map (·.name) ↔ ∃ n, reads name n) ∧
    (LaidOver ctx.source body →
      (∀ u ∈ props, ∃ n, reads u.name n ∧ reported u = position ctx.source n ∧
        ∀ m, reads u.name m → position ctx.source n ≤ position ctx.source m) ∧
      props.Pairwise (fun u v => reported u ≤ reported v)) ∧
    (LaidOver ctx.source body → ObjectsLead body →
      props.Pairwise (fun u v => reported u < reported v)) := by
  intro props reads
  let all := body.preorder.filterMap (readAt? ctx component (parameter.text ctx.source))
  have hprops : props = firstOfEach all [] := declaredProps_of_identifier hall hparameter hname hbody
  have hsublist : firstOfEach all [] <+ all := firstOfEach_sublist all []
  rw [hprops]
  refine ⟨nodup_names_firstOfEach all [], ?_, ?_, ?_⟩
  · intro name
    rw [mem_names_firstOfEach, List.mem_map]
    constructor
    · rintro ⟨⟨u, hu, rfl⟩, _⟩
      obtain ⟨n, hn, hread⟩ := mem_reads_iff.mp hu
      exact ⟨n, hn, (readAt?_eq_some hread).1⟩
    · rintro ⟨n, hn, hread⟩
      obtain ⟨u, hu, huname⟩ := exists_readAt? ctx component hread
      exact ⟨⟨u, mem_reads_iff.mpr ⟨n, hn, hu⟩, huname⟩, List.not_mem_nil⟩
  · intro hover
    have hordered : all.Pairwise (fun u v => reported u ≤ reported v) :=
      reads_nondecreasing hover hsubject
    refine ⟨?_, hordered.sublist hsublist⟩
    intro u hu
    obtain ⟨n, hn, hread⟩ := mem_reads_iff.mp (hsublist.subset hu)
    refine ⟨n, ⟨hn, (readAt?_eq_some hread).1⟩, reported_of_readAt? hread, ?_⟩
    rintro m ⟨hm, hreadm⟩
    -- The other read was met after the one that was kept, or it is that one.
    obtain ⟨v, hv, hvname⟩ := exists_readAt? ctx component hreadm
    rw [← reported_of_readAt? hread, ← reported_of_readAt? hv]
    rcases rel_of_mem_firstOfEach hordered hu (mem_reads_iff.mpr ⟨m, hm, hv⟩) hvname with rfl | hle
    · exact le_rfl
    · exact hle
  · intro hover hlead
    exact (reads_increasing hover hlead hsubject).sublist hsublist

/-- A function that reads its parameter in a type, in an element name, in an attribute and in a function
nested in it, one property again and one under a private name. -/
def readingSource : Source := Source.ofList
  "function F(p) { p.#z; let t: typeof p.t; return <p.I b={p.b.c} d={() => p.t + p.b + q.e} />; }".toList

theorem declaredProps_first_reads_nested :
    let ctx : Context := ⟨readingSource, "f", {}, []⟩
    ∃ root function parameter body, Syntax.parse .tsx readingSource = some root ∧
      function ∈ root.children ∧ firstParameter function = some parameter ∧
      parameter.kind = .identifier ∧ parameter.text readingSource = "p" ∧
      function.child? .body = some body ∧ LaidOver readingSource body ∧ ObjectsLead body ∧
      (declaredProps ctx "F" function).map (·.name) = ["t", "I", "b"] ∧
      (∀ name, name ∈ ["t", "I", "b"] ↔
        ∃ n, n.OccursIn body ∧ Reads readingSource "p" name n) ∧
      (declaredProps ctx "F" function).Pairwise (fun u v => reported u < reported v) := by
  intro ctx
  have hparse : (Syntax.parse .tsx readingSource).any (fun root => root.children.any (fun function =>
      (firstParameter function).any (fun parameter => (function.child? .body).any (fun body =>
        decide ((parameter.kind = .identifier ∧ parameter.text readingSource = "p") ∧
          (LaidOver readingSource body ∧ ObjectsLead body) ∧
          (declaredProps ctx "F" function).map (·.name) = ["t", "I", "b"]))))) = true := by
    decide +kernel
  obtain ⟨root, hroot, h⟩ := (Option.any_eq_true _ _).mp hparse
  obtain ⟨function, hfunction, h⟩ := List.any_eq_true.mp h
  obtain ⟨parameter, hparameter, h⟩ := (Option.any_eq_true _ _).mp h
  obtain ⟨body, hbody, h⟩ := (Option.any_eq_true _ _).mp h
  obtain ⟨⟨hkind, htext⟩, ⟨hover, hlead⟩, hnames⟩ := of_decide_eq_true h
  have hsubject : parameter.text ctx.source ≠ "" := by
    rw [htext]
    decide
  have hall : ctx.selection.prop = none := rfl
  obtain ⟨_, hset, _, hincreasing⟩ :=
    declaredProps_first_reads hall "F" hparameter hkind hsubject hbody
  refine ⟨root, function, parameter, body, hroot, hfunction, hparameter, hkind, htext, hbody, hover,
    hlead, hnames, ?_, hincreasing hover hlead⟩
  intro name
  rw [← hnames, hset name, htext]

end PropAtlas.Component
