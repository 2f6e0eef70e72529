import Rhi.Lib.Json

/-!
# Documents as trees

A JSON value with its positions.  The inner nodes of a document are its objects and the arrays that
hold nothing but objects, every other value is a leaf, and a leaf is named by the steps that lead to
it.  A shape says which steps a document may take, and of what kind the leaf at their end is.
-/

namespace Json

section Values

/-- A number; one with a fraction or an exponent is kept as its bits. -/
inductive Number where
  | integer (value : Int)
  | float (bits : UInt64)
deriving DecidableEq, Repr

inductive Value where
  | null
  | boolean (value : Bool)
  | number (value : Number)
  | text (value : String)
  | array (elements : List Value)
  | object (members : List (String × Value))

namespace Value

def isObject : Value → Bool
  | .object _ => true
  | _ => false

/-- A leaf is neither an object nor an array that holds only objects. -/
def isLeaf : Value → Bool
  | .object _ => false
  | .array elements => !elements.all isObject
  | _ => true

end Value

variable (floatText : UInt64 → List Char)

def Number.print : Number → List Char
  | .integer (.ofNat value) => Nat.toDigits 10 value
  | .integer (.negSucc value) => '-' :: Nat.toDigits 10 (value + 1)
  | .float bits => floatText bits

mutual

/-- A value without blanks. -/
def Value.print : Value → List Char
  | .null => "null".toList
  | .boolean true => "true".toList
  | .boolean false => "false".toList
  | .number value => value.print floatText
  | .text value => quote value
  | .array [] => ['[', ']']
  | .array (first :: rest) => '[' :: (Value.print first ++ Value.printElements rest)
  | .object [] => ['\x7b', '\x7d']
  | .object ((key, value) :: rest) =>
      '\x7b' :: (quote key ++ ':' :: (Value.print value ++ Value.printMembers rest))

/-- The elements after the first. -/
def Value.printElements : List Value → List Char
  | [] => [']']
  | first :: rest => ',' :: (Value.print first ++ Value.printElements rest)

/-- The members after the first. -/
def Value.printMembers : List (String × Value) → List Char
  | [] => ['\x7d']
  | (key, value) :: rest =>
      ',' :: (quote key ++ ':' :: (Value.print value ++ Value.printMembers rest))

end

end Values

section Positions

/-- A step from an inner node to one of its children. -/
inductive Step where
  | member (key : String)
  | element (index : Nat)
deriving DecidableEq, Repr

/-- A step as a part of a path. -/
def Step.text : Step → List Char
  | .member key => key.toList
  | .element index => Nat.toDigits 10 index

/-- The name of a step that has one: an index has none. -/
def Step.name : Step → Option (List Char)
  | .member key => some key.toList
  | .element _ => none

/-- A path of texts, each behind a slash. -/
def pathOf (texts : List (List Char)) : List Char := texts.flatMap fun text => '/' :: text

/-- The path of a position. -/
def pointer (steps : List Step) : List Char := pathOf (steps.map Step.text)

/-- The children of an inner node, under the steps that lead to them. -/
def Value.children : Value → List (Step × Value)
  | .object members => members.map fun member => (.member member.1, member.2)
  | .array elements =>
      if elements.all isObject then
        elements.zipIdx.map fun element => (.element element.2, element.1)
      else
        []
  | _ => []

/-- The value that stands at a position of a document. -/
inductive Stands : Value → List Step → Value → Prop where
  | here {document : Value} : Stands document [] document
  | down {document child value : Value} {step : Step} {steps : List Step} :
      (step, child) ∈ document.children → Stands child steps value →
      Stands document (step :: steps) value

/-- A leaf that stands at a position of a document. -/
def LeafAt (document : Value) (steps : List Step) (leaf : Value) : Prop :=
  Stands document steps leaf ∧ leaf.isLeaf = true

theorem Value.children_of_isLeaf {value : Value} (leaf : value.isLeaf = true) :
    value.children = [] := by
  cases value with
  | object => cases leaf
  | array elements =>
      rw [isLeaf, Bool.not_eq_true'] at leaf
      rw [children, leaf]
      rfl
  | _ => rfl

theorem Value.sizeOf_child {value child : Value} {step : Step}
    (member : (step, child) ∈ value.children) : sizeOf child < sizeOf value := by
  cases value with
  | object members =>
      rcases List.mem_map.mp member with ⟨⟨key, found⟩, present, same⟩
      cases same
      have smaller := List.sizeOf_lt_of_mem present
      simp only [Prod.mk.sizeOf_spec, Value.object.sizeOf_spec] at smaller ⊢
      omega
  | array elements =>
      simp only [children] at member
      split at member
      · rcases List.mem_map.mp member with ⟨⟨found, index⟩, present, same⟩
        cases same
        have smaller := List.sizeOf_lt_of_mem (List.fst_mem_of_mem_zipIdx present)
        simp only [Value.array.sizeOf_spec] at smaller ⊢
        omega
      · cases member
  | _ => cases member

/-- What holds of a value when it holds of its children holds of every value. -/
theorem Value.tree_induction {motive : Value → Prop}
    (node : ∀ value : Value, (∀ step child, (step, child) ∈ value.children → motive child) →
      motive value) (value : Value) : motive value := by
  induction size : sizeOf value using Nat.strong_induction_on generalizing value with
  | _ size ih =>
      refine node value fun step child member => ?_
      exact ih (sizeOf child) (size ▸ sizeOf_child member) child rfl

/-- The leaves of a value, under their paths. -/
def leaves (path : List Char) (value : Value) : List (List Char × Value) :=
  if value.isLeaf then
    [(path, value)]
  else
    value.children.attach.flatMap fun ⟨(step, child), _⟩ => leaves (path ++ '/' :: step.text) child
termination_by sizeOf value
decreasing_by
  rename_i member
  exact Value.sizeOf_child member

theorem leaves_of_isLeaf {path : List Char} {value : Value} (leaf : value.isLeaf = true) :
    leaves path value = [(path, value)] := by
  rw [leaves, if_pos leaf]

theorem leaves_of_not_isLeaf {path : List Char} {value : Value} (inner : value.isLeaf = false) :
    leaves path value =
      value.children.flatMap fun entry => leaves (path ++ '/' :: entry.1.text) entry.2 := by
  rw [leaves, if_neg (by rw [inner]; decide)]
  exact List.flatMap_subtype (fun _ _ => rfl) |>.trans (by rw [List.unattach_attach])

/-- The leaves are listed under the paths of their positions. -/
theorem mem_leaves_iff {path text : List Char} {value leaf : Value} :
    (text, leaf) ∈ leaves path value ↔
      ∃ steps, LeafAt value steps leaf ∧ text = path ++ pointer steps := by
  induction value using Value.tree_induction generalizing path with
  | node value ih =>
      cases isLeaf : value.isLeaf with
      | true =>
          rw [leaves_of_isLeaf isLeaf, List.mem_singleton]
          constructor
          · intro same
            cases same
            exact ⟨[], ⟨.here, isLeaf⟩, by simp [pointer, pathOf]⟩
          · rintro ⟨steps, ⟨stands, -⟩, rfl⟩
            cases stands with
            | here => simp [pointer, pathOf]
            | down member =>
                rw [Value.children_of_isLeaf isLeaf] at member
                cases member
      | false =>
          rw [leaves_of_not_isLeaf isLeaf, List.mem_flatMap]
          constructor
          · rintro ⟨⟨step, child⟩, member, listed⟩
            rcases (ih step child member).mp listed with ⟨steps, ⟨stands, leafLeaf⟩, rfl⟩
            refine ⟨step :: steps, ⟨.down member stands, leafLeaf⟩, ?_⟩
            simp [pointer, pathOf]
          · rintro ⟨steps, ⟨stands, leafLeaf⟩, rfl⟩
            cases stands with
            | here =>
                rw [isLeaf] at leafLeaf
                cases leafLeaf
            | @down _ child _ step steps member stands =>
                refine ⟨(step, child), member,
                  (ih step child member).mpr ⟨steps, ⟨stands, leafLeaf⟩, ?_⟩⟩
                simp [pointer, pathOf]

end Positions

section Paths

/-- The first slash splits a text in one way. -/
theorem split_first {left right leftRest rightRest : List Char} (leftPlain : '/' ∉ left)
    (rightPlain : '/' ∉ right) (same : left ++ '/' :: leftRest = right ++ '/' :: rightRest) :
    left = right ∧ leftRest = rightRest := by
  induction left generalizing right with
  | nil =>
      cases right with
      | nil => exact ⟨rfl, (List.cons.inj same).2⟩
      | cons first right =>
          rw [← (List.cons.inj same).1] at rightPlain
          exact absurd List.mem_cons_self rightPlain
  | cons first left ih =>
      cases right with
      | nil =>
          rw [(List.cons.inj same).1] at leftPlain
          exact absurd List.mem_cons_self leftPlain
      | cons second right =>
          rw [List.mem_cons, not_or] at leftPlain rightPlain
          rcases List.cons.inj same with ⟨rfl, later⟩
          rcases ih leftPlain.2 rightPlain.2 later with ⟨rfl, rest⟩
          exact ⟨rfl, rest⟩

/-- The last slash splits a text in one way. -/
theorem split_last {left right leftRest rightRest : List Char} (leftPlain : '/' ∉ left)
    (rightPlain : '/' ∉ right) (same : leftRest ++ '/' :: left = rightRest ++ '/' :: right) :
    left = right ∧ leftRest = rightRest := by
  have reversed := congrArg List.reverse same
  simp only [List.reverse_append, List.reverse_cons, List.append_assoc, List.cons_append,
    List.nil_append] at reversed
  rcases split_first (by simpa using leftPlain) (by simpa using rightPlain) reversed with
    ⟨names, rests⟩
  exact ⟨List.reverse_injective names, List.reverse_injective rests⟩

/-- Texts without slashes. -/
def Plain (texts : List (List Char)) : Prop := ∀ text ∈ texts, '/' ∉ text

theorem pathOf_cons (text : List Char) (texts : List (List Char)) :
    pathOf (text :: texts) = '/' :: (text ++ pathOf texts) := rfl

theorem pathOf_append (left right : List (List Char)) :
    pathOf (left ++ right) = pathOf left ++ pathOf right := List.flatMap_append

theorem pathOf_eq (texts : List (List Char)) :
    pathOf texts = [] ∧ texts = [] ∨ ∃ rest, pathOf texts = '/' :: rest := by
  cases texts with
  | nil => exact .inl ⟨rfl, rfl⟩
  | cons text texts => exact .inr ⟨_, pathOf_cons text texts⟩

theorem pathOf_cons_inj {left right : List Char} {leftTexts rightTexts : List (List Char)}
    (leftPlain : '/' ∉ left) (rightPlain : '/' ∉ right)
    (same : pathOf (left :: leftTexts) = pathOf (right :: rightTexts)) :
    left = right ∧ pathOf leftTexts = pathOf rightTexts := by
  rw [pathOf_cons, pathOf_cons] at same
  have same := (List.cons.inj same).2
  have closed : ∀ {text : List Char} {texts : List (List Char)},
      ∃ rest, text ++ pathOf texts ++ ['/'] = text ++ '/' :: rest ∧
        (pathOf texts ++ ['/'] = '/' :: rest) := by
    intro text texts
    rcases pathOf_eq texts with ⟨empty, -⟩ | ⟨rest, split⟩
    · exact ⟨[], by simp [empty], by simp [empty]⟩
    · exact ⟨rest ++ ['/'], by simp [split], by simp [split]⟩
  rcases @closed left leftTexts with ⟨leftRest, leftClosed, leftSplit⟩
  rcases @closed right rightTexts with ⟨rightRest, rightClosed, rightSplit⟩
  have whole : left ++ '/' :: leftRest = right ++ '/' :: rightRest := by
    rw [← leftClosed, ← rightClosed, same]
  rcases split_first leftPlain rightPlain whole with ⟨names, rests⟩
  have closedSame : pathOf leftTexts ++ ['/'] = pathOf rightTexts ++ ['/'] := by
    rw [leftSplit, rightSplit, rests]
  exact ⟨names, List.append_cancel_right closedSame⟩

theorem pathOf_inj {left right : List (List Char)} (leftPlain : Plain left)
    (rightPlain : Plain right) (same : pathOf left = pathOf right) : left = right := by
  induction left generalizing right with
  | nil =>
      cases right with
      | nil => rfl
      | cons => cases same
  | cons first left ih =>
      cases right with
      | nil => cases same
      | cons second right =>
          rcases pathOf_cons_inj (leftPlain _ List.mem_cons_self) (rightPlain _ List.mem_cons_self)
            same with ⟨rfl, later⟩
          rw [ih (fun text member => leftPlain text (List.mem_cons_of_mem _ member))
            (fun text member => rightPlain text (List.mem_cons_of_mem _ member)) later]

/-- A path ends with a text behind a slash exactly when the text is its last part. -/
theorem suffix_pathOf_iff {key : List Char} {texts : List (List Char)} (keyPlain : '/' ∉ key)
    (plain : Plain texts) : ('/' :: key) <:+ pathOf texts ↔ texts.getLast? = some key := by
  rcases List.eq_nil_or_concat texts with rfl | ⟨before, last, rfl⟩
  · simp [pathOf]
  · rw [List.concat_eq_append, List.getLast?_concat, Option.some.injEq, pathOf_append]
    have lastPlain : '/' ∉ last := plain last (by simp)
    have end_ : pathOf [last] = '/' :: last := by simp [pathOf]
    rw [end_]
    constructor
    · rintro ⟨front, same⟩
      exact (split_last keyPlain lastPlain same).1.symm
    · rintro rfl
      exact List.suffix_append _ _

/-- A path goes on behind some parts exactly when they are its first parts, and not all of them. -/
theorem prefix_pathOf_iff {front texts : List (List Char)} (frontPlain : Plain front)
    (plain : Plain texts) :
    (pathOf front ++ ['/']) <+: pathOf texts ↔ ∃ rest, rest ≠ [] ∧ texts = front ++ rest := by
  induction front generalizing texts with
  | nil =>
      rcases pathOf_eq texts with ⟨empty, rfl⟩ | ⟨rest, split⟩
      · simp [pathOf]
      · have nonempty : texts ≠ [] := by
          rintro rfl
          cases split
        rw [split]
        simp [pathOf, nonempty]
  | cons first front ih =>
      cases texts with
      | nil => simp [pathOf]
      | cons second texts =>
          have firstPlain := frontPlain first List.mem_cons_self
          have secondPlain := plain second List.mem_cons_self
          have later := @ih texts
            (fun text member => frontPlain text (List.mem_cons_of_mem _ member))
            (fun text member => plain text (List.mem_cons_of_mem _ member))
          constructor
          · rintro ⟨rest, same⟩
            have shorter : pathOf (first :: front) ++ ['/'] ++ rest =
                pathOf (first :: (front ++ [rest])) := by
              simp [pathOf]
            rw [shorter] at same
            rcases pathOf_cons_inj firstPlain secondPlain same with ⟨rfl, remaining⟩
            have tail : (pathOf front ++ ['/']) <+: pathOf texts := by
              refine ⟨rest, ?_⟩
              rw [← remaining, pathOf_append]
              simp [pathOf]
            rcases later.mp tail with ⟨others, nonempty, rfl⟩
            exact ⟨others, nonempty, rfl⟩
          · rintro ⟨rest, nonempty, same⟩
            rcases List.cons.inj same with ⟨rfl, split⟩
            rcases later.mpr ⟨rest, nonempty, split⟩ with ⟨tail, whole⟩
            refine ⟨tail, ?_⟩
            rw [pathOf_cons, pathOf_cons, ← whole]
            simp

end Paths

section Names

/-- A document whose children have different names without slashes, below every node. -/
structure WellNamed (document : Value) : Prop where
  plain : ∀ {steps : List Step} {node child : Value} {step : Step}, Stands document steps node →
    (step, child) ∈ node.children → '/' ∉ step.text
  named : ∀ {steps : List Step} {node : Value} {left right : Step × Value},
    Stands document steps node → left ∈ node.children → right ∈ node.children →
      left.1.text = right.1.text → left = right

theorem WellNamed.child {document child : Value} {step : Step} (wellNamed : WellNamed document)
    (member : (step, child) ∈ document.children) : WellNamed child where
  plain stands := wellNamed.plain (.down member stands)
  named stands := wellNamed.named (.down member stands)

theorem Stands.plain {document value : Value} {steps : List Step} (wellNamed : WellNamed document)
    (stands : Stands document steps value) : Plain (steps.map Step.text) := by
  induction stands with
  | here => exact List.forall_mem_nil _
  | down member _ ih =>
      exact List.forall_mem_cons.mpr ⟨wellNamed.plain .here member, ih (wellNamed.child member)⟩

/-- A path names one position. -/
theorem Stands.unique {document left right : Value} {leftSteps rightSteps : List Step}
    (wellNamed : WellNamed document) (first : Stands document leftSteps left)
    (second : Stands document rightSteps right) (same : pointer leftSteps = pointer rightSteps) :
    leftSteps = rightSteps ∧ left = right := by
  induction first generalizing rightSteps with
  | here =>
      cases second with
      | here => exact ⟨rfl, rfl⟩
      | down => cases same
  | @down document child _ step steps member stands ih =>
      cases second with
      | here => cases same
      | @down _ other _ otherStep _ otherMem later =>
          have plain := wellNamed.plain .here member
          have otherPlain := wellNamed.plain .here otherMem
          rcases pathOf_cons_inj plain otherPlain same with ⟨names, rest⟩
          cases wellNamed.named .here member otherMem names
          rcases ih (wellNamed.child member) later rest with ⟨rfl, rfl⟩
          exact ⟨rfl, rfl⟩

/-- A text that is not a number is the name of a step. -/
theorem Step.text_eq_iff {step : Step} {key : List Char} (word : ¬key.all Char.isDigit = true) :
    step.text = key ↔ step.name = some key := by
  cases step with
  | member name => exact Option.some_inj.symm
  | element index =>
      constructor
      · rintro rfl
        refine absurd (List.all_eq_true.mpr fun character member => ?_) word
        exact Nat.isDigit_of_mem_toDigits (by decide) (by decide) member
      · intro same
        cases same

theorem map_text_eq_iff {steps : List Step} {keys : List (List Char)}
    (words : ∀ key ∈ keys, ¬key.all Char.isDigit = true) :
    steps.map Step.text = keys ↔ steps.map Step.name = keys.map some := by
  induction steps generalizing keys with
  | nil => cases keys <;> simp
  | cons step steps ih =>
      cases keys with
      | nil => simp
      | cons key keys =>
          rcases List.forall_mem_cons.mp words with ⟨word, words⟩
          rw [List.map_cons, List.map_cons, List.map_cons, List.cons.injEq, List.cons.injEq,
            Step.text_eq_iff word, ih words]

/-- The keys of every object are in their order. -/
def Ordered (document : Value) : Prop :=
  ∀ steps members, Stands document steps (.object members) →
    members.Pairwise fun left right => left.1 < right.1

mutual

/-- Whether the keys of every object are in their order. -/
def Value.inOrder : Value → Bool
  | .object members =>
      decide (members.Pairwise fun left right => left.1 < right.1) && membersInOrder members
  | .array elements => elementsInOrder elements
  | _ => true

def Value.membersInOrder : List (String × Value) → Bool
  | [] => true
  | (_, child) :: rest => child.inOrder && membersInOrder rest

def Value.elementsInOrder : List Value → Bool
  | [] => true
  | child :: rest => child.inOrder && elementsInOrder rest

end

theorem Value.membersInOrder_iff {members : List (String × Value)} :
    membersInOrder members = true ↔ ∀ member ∈ members, member.2.inOrder = true := by
  induction members with
  | nil => simp [membersInOrder]
  | cons member members ih =>
      rw [membersInOrder, Bool.and_eq_true, ih, List.forall_mem_cons]

theorem Value.elementsInOrder_iff {elements : List Value} :
    elementsInOrder elements = true ↔ ∀ element ∈ elements, element.inOrder = true := by
  induction elements with
  | nil => simp [elementsInOrder]
  | cons element elements ih =>
      rw [elementsInOrder, Bool.and_eq_true, ih, List.forall_mem_cons]

theorem Value.inOrder_child {value child : Value} {step : Step} (inOrder : value.inOrder = true)
    (member : (step, child) ∈ value.children) : child.inOrder = true := by
  cases value with
  | object members =>
      rw [Value.inOrder, Bool.and_eq_true, membersInOrder_iff] at inOrder
      rcases List.mem_map.mp member with ⟨⟨key, found⟩, present, same⟩
      cases same
      exact inOrder.2 _ present
  | array elements =>
      rw [Value.inOrder, elementsInOrder_iff] at inOrder
      simp only [children] at member
      split at member
      · rcases List.mem_map.mp member with ⟨⟨found, index⟩, present, same⟩
        cases same
        exact inOrder found (List.fst_mem_of_mem_zipIdx present)
      · cases member
  | _ => cases member

theorem ordered_of_inOrder {document : Value} (inOrder : document.inOrder = true) :
    Ordered document := by
  intro steps members stands
  induction steps generalizing document with
  | nil =>
      cases stands
      rw [Value.inOrder, Bool.and_eq_true, decide_eq_true_eq] at inOrder
      exact inOrder.1
  | cons step steps ih =>
      cases stands with
      | down member later => exact ih (Value.inOrder_child inOrder member) later

end Names

section Shapes

universe u

/-- Where a document may have its leaves, and of what kind each of them is. -/
inductive Shape (Kind : Type u) where
  | leaf (kind : Kind)
  | object (properties : List (String × Shape Kind))
  | list (item : Shape Kind)

namespace Shape

variable {Kind : Type u} (takes : Kind → Value → Bool)

mutual

/-- Whether a document has a shape: objects have no properties but those of the shape, and lists
hold objects. -/
def admits : Shape Kind → Value → Bool
  | .leaf kind, value => takes kind value
  | .object properties, .object members => admitsMembers properties members
  | .list item, .array elements => admitsElements item elements
  | _, _ => false

def admitsMembers (properties : List (String × Shape Kind)) : List (String × Value) → Bool
  | [] => true
  | (key, child) :: rest =>
      (match properties.lookup key with
        | some shape => admits shape child
        | none => false) && admitsMembers properties rest

def admitsElements (item : Shape Kind) : List Value → Bool
  | [] => true
  | first :: rest => first.isObject && admits item first && admitsElements item rest

end

/-- The kind of the leaf at a position of a shape. -/
inductive At : Shape Kind → List Step → Kind → Prop where
  | leaf {kind : Kind} : At (.leaf kind) [] kind
  | member {properties : List (String × Shape Kind)} {key : String} {shape : Shape Kind}
      {steps : List Step} {kind : Kind} : properties.lookup key = some shape →
      At shape steps kind → At (.object properties) (.member key :: steps) kind
  | element {item : Shape Kind} {index : Nat} {steps : List Step} {kind : Kind} :
      At item steps kind → At (.list item) (.element index :: steps) kind

/-- A position of a shape is of one kind. -/
theorem At.unique {shape : Shape Kind} {steps : List Step} {left right : Kind}
    (first : shape.At steps left) (second : shape.At steps right) : left = right := by
  induction first with
  | leaf =>
      cases second
      rfl
  | member named _ ih =>
      cases second with
      | member other later =>
          cases named.symm.trans other
          exact ih later
  | element _ ih =>
      cases second with
      | element later => exact ih later

mutual

/-- Whether a check holds at every leaf of a shape, under the names that lead to it. -/
def everywhere (check : List (Option (List Char)) → Kind → Bool)
    (names : List (Option (List Char))) :
    Shape Kind → Bool
  | .leaf kind => check names kind
  | .object properties => everywhereBelow check names properties
  | .list item => everywhere check (names ++ [none]) item

def everywhereBelow (check : List (Option (List Char)) → Kind → Bool)
    (names : List (Option (List Char))) : List (String × Shape Kind) → Bool
  | [] => true
  | (key, shape) :: rest =>
      everywhere check (names ++ [some key.toList]) shape && everywhereBelow check names rest

end

mutual

/-- Whether no property of a shape has a slash in its name. -/
def keysPlain : Shape Kind → Bool
  | .leaf _ => true
  | .object properties => propertiesPlain properties
  | .list item => keysPlain item

def propertiesPlain : List (String × Shape Kind) → Bool
  | [] => true
  | (key, shape) :: rest => !key.toList.contains '/' && keysPlain shape && propertiesPlain rest

end

variable {takes}

theorem admitsMembers_iff {properties : List (String × Shape Kind)}
    {members : List (String × Value)} :
    admitsMembers takes properties members = true ↔
      ∀ member ∈ members, ∃ shape, properties.lookup member.1 = some shape ∧
        shape.admits takes member.2 = true := by
  induction members with
  | nil => simp [admitsMembers]
  | cons member members ih =>
      rcases member with ⟨key, child⟩
      rw [admitsMembers, Bool.and_eq_true, ih, List.forall_mem_cons]
      apply and_congr_left
      intro _
      cases properties.lookup key with
      | none => simp
      | some shape => simp

theorem admitsElements_iff {item : Shape Kind} {elements : List Value} :
    admitsElements takes item elements = true ↔
      ∀ element ∈ elements, element.isObject = true ∧ item.admits takes element = true := by
  induction elements with
  | nil => simp [admitsElements]
  | cons element elements ih =>
      rw [admitsElements, Bool.and_eq_true, Bool.and_eq_true, ih, List.forall_mem_cons]

/-- What a child is to have when its parent has a shape. -/
theorem child_admitted {shape : Shape Kind} {document child : Value} {step : Step}
    (leaves : ∀ kind value, takes kind value = true → value.children = [])
    (admitted : shape.admits takes document = true) (member : (step, child) ∈ document.children) :
    (∃ properties key next, shape = .object properties ∧ step = .member key ∧
        properties.lookup key = some next ∧ next.admits takes child = true) ∨
      ∃ item index, shape = .list item ∧ step = .element index ∧
        item.admits takes child = true := by
  cases shape with
  | leaf kind =>
      rw [admits] at admitted
      rw [leaves kind document admitted] at member
      cases member
  | object properties =>
      cases document with
      | object members =>
          rw [admits, admitsMembers_iff] at admitted
          rcases List.mem_map.mp member with ⟨⟨key, found⟩, present, same⟩
          cases same
          rcases admitted (key, found) present with ⟨next, named, below⟩
          exact .inl ⟨properties, key, next, rfl, rfl, named, below⟩
      | _ => simp [admits] at admitted
  | list item =>
      cases document with
      | array elements =>
          rw [admits, admitsElements_iff] at admitted
          have objects : elements.all Value.isObject = true :=
            List.all_eq_true.mpr fun element present => (admitted element present).1
          rw [Value.children, if_pos objects] at member
          rcases List.mem_map.mp member with ⟨⟨found, index⟩, present, same⟩
          cases same
          have below := (admitted found (List.fst_mem_of_mem_zipIdx present)).2
          exact .inr ⟨item, index, rfl, rfl, below⟩
      | _ => simp [admits] at admitted

/-- A leaf of a document stands where its shape has one, and is of its kind. -/
theorem at_of_leafAt {shape : Shape Kind} {document leaf : Value} {steps : List Step}
    (leaves : ∀ kind value, takes kind value = true → value.children = [])
    (admitted : shape.admits takes document = true) (leafAt : LeafAt document steps leaf) :
    ∃ kind, shape.At steps kind ∧ takes kind leaf = true := by
  rcases leafAt with ⟨stands, isLeaf⟩
  induction stands generalizing shape with
  | @here document =>
      cases shape with
      | leaf kind => exact ⟨kind, .leaf, by rwa [admits] at admitted⟩
      | object properties =>
          cases document with
          | object => cases isLeaf
          | _ => simp [admits] at admitted
      | list item =>
          cases document with
          | array elements =>
              rw [admits, admitsElements_iff] at admitted
              have objects : elements.all Value.isObject = true :=
                List.all_eq_true.mpr fun element present => (admitted element present).1
              rw [Value.isLeaf, objects] at isLeaf
              cases isLeaf
          | _ => simp [admits] at admitted
  | down member _ ih =>
      rcases child_admitted leaves admitted member with
        ⟨properties, key, next, rfl, rfl, named, below⟩ | ⟨item, index, rfl, rfl, below⟩
      · rcases ih below isLeaf with ⟨kind, found, taken⟩
        exact ⟨kind, .member named found, taken⟩
      · rcases ih below isLeaf with ⟨kind, found, taken⟩
        exact ⟨kind, .element found, taken⟩

theorem everywhere_of_lookup {check : List (Option (List Char)) → Kind → Bool}
    {names : List (Option (List Char))} {properties : List (String × Shape Kind)} {key : String}
    {shape : Shape Kind} (checked : everywhereBelow check names properties = true)
    (named : properties.lookup key = some shape) :
    everywhere check (names ++ [some key.toList]) shape = true := by
  induction properties with
  | nil => cases named
  | cons property properties ih =>
      rcases property with ⟨name, next⟩
      rw [everywhereBelow, Bool.and_eq_true] at checked
      rw [List.lookup_cons] at named
      split at named
      case h_1 same =>
        cases named
        rw [beq_iff_eq.mp same]
        exact checked.1
      case h_2 => exact ih checked.2 named

/-- What is checked everywhere holds at every position. -/
theorem At.check {check : List (Option (List Char)) → Kind → Bool}
    {names : List (Option (List Char))} {shape : Shape Kind} {steps : List Step} {kind : Kind}
    (found : shape.At steps kind) (checked : everywhere check names shape = true) :
    check (names ++ steps.map Step.name) kind = true := by
  induction found generalizing names with
  | leaf =>
      rw [everywhere] at checked
      rwa [List.map_nil, List.append_nil]
  | member named _ ih =>
      rw [everywhere] at checked
      have below := ih (everywhere_of_lookup checked named)
      rwa [List.append_assoc] at below
  | element _ ih =>
      rw [everywhere] at checked
      have below := ih checked
      rwa [List.append_assoc] at below

theorem plain_of_lookup {properties : List (String × Shape Kind)} {key : String}
    {shape : Shape Kind} (plain : propertiesPlain properties = true)
    (named : properties.lookup key = some shape) :
    '/' ∉ key.toList ∧ shape.keysPlain = true := by
  induction properties with
  | nil => cases named
  | cons property properties ih =>
      rcases property with ⟨name, next⟩
      simp only [propertiesPlain, Bool.and_eq_true, Bool.not_eq_true'] at plain
      rw [List.lookup_cons] at named
      split at named
      case h_1 same =>
        cases named
        rw [beq_iff_eq.mp same]
        exact ⟨by simpa using plain.1.1, plain.1.2⟩
      case h_2 => exact ih plain.2 named

theorem slash_not_mem_toDigits (index : Nat) : '/' ∉ Nat.toDigits 10 index := by
  intro member
  have digit := Nat.isDigit_of_mem_toDigits (by decide) (by decide) member
  exact absurd digit (by decide)

/-- A document of a shape with plain names is well named. -/
theorem wellNamed {shape : Shape Kind} {document : Value}
    (leaves : ∀ kind value, takes kind value = true → value.children = [])
    (plain : shape.keysPlain = true) (admitted : shape.admits takes document = true)
    (ordered : Ordered document) : WellNamed document where
  plain := by
    intro steps node child step stands member
    clear ordered
    induction stands generalizing shape with
    | here =>
        rcases child_admitted leaves admitted member with
          ⟨properties, key, next, rfl, rfl, named, -⟩ | ⟨item, index, rfl, rfl, -⟩
        · exact (plain_of_lookup (by rwa [keysPlain] at plain) named).1
        · exact slash_not_mem_toDigits index
    | down above _ ih =>
        rcases child_admitted leaves admitted above with
          ⟨properties, key, next, rfl, rfl, named, below⟩ | ⟨item, index, rfl, rfl, below⟩
        · exact ih (plain_of_lookup (by rwa [keysPlain] at plain) named).2 below member
        · exact ih (by rwa [keysPlain] at plain) below member
  named := by
    intro steps node left right stands leftMem rightMem same
    cases node with
    | object members =>
        rcases List.mem_map.mp leftMem with ⟨⟨leftKey, leftChild⟩, leftPresent, rfl⟩
        rcases List.mem_map.mp rightMem with ⟨⟨rightKey, rightChild⟩, rightPresent, rfl⟩
        have keys : leftKey = rightKey := String.toList_inj.mp same
        have distinct : (members.map Prod.fst).Nodup := by
          rw [List.Nodup, List.pairwise_map]
          refine (ordered steps members stands).imp ?_
          intro before after less equal
          exact String.lt_irrefl _ (equal ▸ less)
        cases List.inj_on_of_nodup_map distinct leftPresent rightPresent keys
        rfl
    | array elements =>
        simp only [Value.children] at leftMem rightMem
        split at leftMem
        case isTrue objects =>
          rw [if_pos objects] at rightMem
          rcases List.mem_map.mp leftMem with ⟨⟨leftChild, leftIndex⟩, leftPresent, rfl⟩
          rcases List.mem_map.mp rightMem with ⟨⟨rightChild, rightIndex⟩, rightPresent, rfl⟩
          have indices : leftIndex = rightIndex := by
            have values := congrArg (fun digits => Nat.ofDigitChars 10 digits 0) same
            simpa only [Step.text, Nat.ofDigitChars_ten_toDigits] using values
          have leftElement := List.mk_mem_zipIdx_iff_getElem?.mp leftPresent
          have rightElement := List.mk_mem_zipIdx_iff_getElem?.mp rightPresent
          rw [indices, rightElement] at leftElement
          cases leftElement
          rw [indices]
        case isFalse => cases leftMem
    | _ => cases leftMem

end Shape

end Shapes

end Json
