import TypedMarkup.Proofs.Markup.PathPairs
import TypedMarkup.Proofs.Token.Relocation

/-!
Contract: what is read, at other places.

Owns: `relocate` for everything that is read, `unplaced`, which puts every place to the origin, and
that the host code of a group does not depend on where the group stands.

The places of the path separators in a group are offsets in the whole text, and points are written
by comparing offsets with them. Both move by the same distance.
-/

namespace TypedMarkup

/-! ## Changing the places of what is read -/

def Expression.relocate (move : Position → Position) : Expression → Expression
  | .path head members span => .path head members (span.relocate move)
  | .call segments code span => .call segments code (span.relocate move)
  | .group delimiter code span => .group delimiter code (span.relocate move)

def AttributeValue.relocate (move : Position → Position) : AttributeValue → AttributeValue
  | .literal value raw quoted span => .literal value raw quoted (span.relocate move)
  | .expression captured => .expression (captured.relocate move)

namespace Markup

def Attribute.relocate (move : Position → Position) (found : Attribute) : Attribute :=
  { name := found.name
    value := found.value.relocate move
    nameSpan := found.nameSpan.relocate move
    span := found.span.relocate move }

def Tag.relocate (move : Position → Position) (tag : Tag) : Tag :=
  { name := tag.name
    attributes := tag.attributes.map (Attribute.relocate move)
    selfClosing := tag.selfClosing
    nameSpan := tag.nameSpan.relocate move }

mutual

def Node.relocate (move : Position → Position) : Node → Node
  | .element tag children span =>
    .element (tag.relocate move) (Node.relocateAll move children) (span.relocate move)
  | .text value span => .text value (span.relocate move)
  | .block expression => .block (expression.relocate move)

def Node.relocateAll (move : Position → Position) : List Node → List Node
  | [] => []
  | node :: rest => node.relocate move :: Node.relocateAll move rest

end

theorem Node.relocateAll_eq_map (move : Position → Position) (nodes : List Node) :
    Node.relocateAll move nodes = nodes.map (Node.relocate move) := by
  induction nodes with
  | nil => rw [relocateAll, List.map_nil]
  | cons node rest ih => rw [relocateAll, ih, List.map_cons]

def Source.relocate (move : Position → Position) (unit : Source) : Source :=
  { root := unit.root.relocate move
    output := unit.output.map fun found => (found.1, found.2.relocate move)
    span := unit.span.relocate move }

end Markup

theorem Span.relocate_join (move : Position → Position) (first last : Span) :
    (first.join last).relocate move = (first.relocate move).join (last.relocate move) := rfl

theorem Expression.span_relocate (move : Position → Position) (captured : Expression) :
    (captured.relocate move).span = captured.span.relocate move := by
  cases captured <;> rfl

theorem AttributeValue.span_relocate (move : Position → Position) (found : AttributeValue) :
    (found.relocate move).span = found.span.relocate move := by
  cases found with
  | literal => rfl
  | expression captured => exact captured.span_relocate move

theorem Markup.Node.span_relocate (move : Position → Position) (node : Node) :
    (node.relocate move).span = node.span.relocate move := by
  cases node with
  | element | text =>
    rw [relocate]
    rfl
  | block captured =>
    rw [relocate]
    exact captured.span_relocate move

/-! ## Without places -/

def Expression.unplaced : Expression → Expression
  | path head members _ => path head members .origin
  | call segments code _ => call segments code .origin
  | group delimiter code _ => group delimiter code .origin

def AttributeValue.unplaced : AttributeValue → AttributeValue
  | literal value raw quoted _ => literal value raw quoted .origin
  | expression code => expression code.unplaced

namespace Markup

def Attribute.unplaced (found : Attribute) : Attribute :=
  ⟨found.name, found.value.unplaced, .origin, .origin⟩

def Tag.unplaced (tag : Tag) : Tag :=
  ⟨tag.name, tag.attributes.map Attribute.unplaced, tag.selfClosing, .origin⟩

mutual

/-- A tree with every place put to the origin. -/
def Node.unplaced : Node → Node
  | .element tag children _ => .element tag.unplaced (unplacedAll children) .origin
  | .text value _ => .text value .origin
  | .block expression => .block expression.unplaced

def unplacedAll : List Node → List Node
  | [] => []
  | child :: rest => child.unplaced :: unplacedAll rest

end

theorem unplacedAll_eq_map (nodes : List Node) : unplacedAll nodes = nodes.map Node.unplaced := by
  induction nodes with
  | nil => rfl
  | cons node rest ih => rw [unplacedAll, ih, List.map_cons]

end Markup

/-! Taking away all places is to move them all to the origin. -/

theorem Expression.relocate_origin (captured : Expression) :
    captured.relocate (fun _ => .origin) = captured.unplaced := by
  cases captured <;> rfl

theorem AttributeValue.relocate_origin (found : AttributeValue) :
    found.relocate (fun _ => .origin) = found.unplaced := by
  cases found with
  | literal => rfl
  | expression captured => exact congrArg _ captured.relocate_origin

namespace Markup

theorem Attribute.relocate_origin (found : Attribute) :
    found.relocate (fun _ => .origin) = found.unplaced := by
  rw [Attribute.relocate, AttributeValue.relocate_origin]
  rfl

theorem Tag.relocate_origin (tag : Tag) : tag.relocate (fun _ => .origin) = tag.unplaced := by
  have attributes : tag.attributes.map (Attribute.relocate fun _ => .origin) =
      tag.attributes.map Attribute.unplaced :=
    List.map_congr_left fun found _ => found.relocate_origin
  rw [Tag.relocate, attributes]
  rfl

theorem Node.relocate_origin (node : Node) :
    node.relocate (fun _ => .origin) = node.unplaced := by
  induction node using Node.induction_children with
  | element tag children span ih =>
    rw [Node.relocate, Node.unplaced, tag.relocate_origin, relocateAll_eq_map, unplacedAll_eq_map,
      List.map_congr_left ih]
    rfl
  | text value span =>
    rw [Node.relocate]
    rfl
  | block captured => rw [Node.relocate, Node.unplaced, captured.relocate_origin]

end Markup

/-! ## Leaving all places as they are -/

theorem Expression.relocate_id (captured : Expression) : captured.relocate id = captured := by
  cases captured <;> rfl

theorem AttributeValue.relocate_id (found : AttributeValue) : found.relocate id = found := by
  cases found with
  | literal => rfl
  | expression captured => exact congrArg _ captured.relocate_id

namespace Markup

theorem Attribute.relocate_id (found : Attribute) : found.relocate id = found := by
  rw [Attribute.relocate, AttributeValue.relocate_id]
  rfl

theorem Tag.relocate_id (tag : Tag) : tag.relocate id = tag := by
  have attributes : tag.attributes.map (Attribute.relocate id) = tag.attributes :=
    List.map_id'' Attribute.relocate_id tag.attributes
  rw [Tag.relocate, attributes]
  rfl

theorem Node.relocate_id (node : Node) : node.relocate id = node := by
  induction node using Node.induction_children with
  | element tag children span ih =>
    rw [Node.relocate, tag.relocate_id, relocateAll_eq_map, List.map_congr_left ih, List.map_id']
    rfl
  | text value span =>
    rw [Node.relocate]
    rfl
  | block captured => rw [Node.relocate, captured.relocate_id]

theorem Source.relocate_id (unit : Source) : unit.relocate id = unit := by
  have output : (unit.output.map fun found => (found.1, found.2.relocate id)) = unit.output :=
    Option.map_id'
  rw [Source.relocate, unit.root.relocate_id, output]
  rfl

end Markup

/-! ## Host code does not depend on the place -/

/-- All offsets are changed by the same distance. -/
def Position.Shifts (move : Position → Position) : Prop :=
  ∃ distance, ∀ position, (move position).offset = position.offset + distance

theorem Position.shifts_shift (base : Position) : Position.Shifts base.shift :=
  ⟨base.offset, fun position => Nat.add_comm base.offset position.offset⟩

theorem Position.shifts_id : Position.Shifts id := ⟨0, fun _ => rfl⟩

namespace Capture

section

variable {move : Position → Position} {distance : Nat}

theorem isSubscript_relocate (before : Option Token) (token : Token) :
    isSubscript (before.map (Token.relocate move)) (token.relocate move) =
      isSubscript before token := by
  have same : (token.relocate move).isGroup .bracket = token.isGroup .bracket := by
    cases token <;> rw [Token.relocate] <;> rfl
  unfold isSubscript
  rw [same]
  cases before with
  | none => rfl
  | some found => cases found <;> simp only [Option.map_some, Token.relocate]

theorem exists_of_relocate_eq_identifier {token : Token} {name : String} {place : Span}
    (moved : token.relocate move = .identifier name place) :
    ∃ span, token = .identifier name span ∧ span.relocate move = place := by
  cases token <;> rw [Token.relocate] at moved <;> cases moved
  exact ⟨_, rfl, rfl⟩

theorem exists_of_relocate_eq_mark {token : Token} {character : Char} {place : Span}
    (moved : token.relocate move = .mark character place) :
    ∃ span, token = .mark character span ∧ span.relocate move = place := by
  cases token <;> rw [Token.relocate] at moved <;> cases moved
  exact ⟨_, rfl, rfl⟩

theorem joinsPath_relocate
    (shifts : ∀ position, (move position).offset = position.offset + distance)
    (before : Option Token) (token : Token) (after : List Token) :
    joinsPath (before.map (Token.relocate move)) (token.relocate move)
      (relocateAll move after) = joinsPath before token after := by
  rw [Bool.eq_iff_iff, joinsPath_iff, joinsPath_iff, relocateAll_eq_map]
  have touching (first second : Span) :
      (first.relocate move).stop.offset = (second.relocate move).start.offset ↔
        first.stop.offset = second.start.offset := by
    rw [Span.relocate, Span.relocate, shifts, shifts, Nat.add_right_cancel_iff]
  constructor
  · rintro ⟨head, headPlace, firstPlace, secondPlace, member, memberPlace, more, isHead, isFirst,
      ahead, directly, touch⟩
    obtain ⟨headToken, rfl, headMoved⟩ := Option.map_eq_some_iff.mp isHead
    obtain ⟨headSpan, rfl, rfl⟩ := exists_of_relocate_eq_identifier headMoved
    obtain ⟨first, rfl, rfl⟩ := exists_of_relocate_eq_mark isFirst
    obtain ⟨secondToken, behind, rfl, isSecond, further⟩ := List.map_eq_cons_iff.mp ahead
    obtain ⟨second, rfl, rfl⟩ := exists_of_relocate_eq_mark isSecond
    obtain ⟨memberToken, rest, rfl, isMember, -⟩ := List.map_eq_cons_iff.mp further
    obtain ⟨memberSpan, rfl, -⟩ := exists_of_relocate_eq_identifier isMember
    exact ⟨head, headSpan, first, second, member, memberSpan, rest, rfl, rfl, rfl,
      (touching _ _).mp directly, (touching _ _).mp touch⟩
  · rintro ⟨head, headSpan, first, second, member, memberSpan, more, rfl, rfl, rfl, directly, touch⟩
    simp only [Option.map_some, List.map_cons, Token.relocate]
    exact ⟨_, _, _, _, _, _, _, rfl, rfl, rfl, (touching _ _).mpr directly,
      (touching _ _).mpr touch⟩

mutual

theorem separatorsOf_relocate
    (shifts : ∀ position, (move position).offset = position.offset + distance) (subscript : Bool)
    (token : Token) :
    separatorsOf subscript (token.relocate move) =
      (separatorsOf subscript token).map (· + distance) := by
  cases token with
  | group delimiter raw children span =>
    rw [Token.relocate, separatorsOf, separatorsOf]
    exact separatorsIn_relocate shifts subscript none children
  | _ =>
    rw [Token.relocate]
    rfl

theorem separatorsIn_relocate
    (shifts : ∀ position, (move position).offset = position.offset + distance) (subscript : Bool)
    (before : Option Token) (tokens : List Token) :
    separatorsIn subscript (before.map (Token.relocate move)) (relocateAll move tokens) =
      (separatorsIn subscript before tokens).map (· + distance) := by
  cases tokens with
  | nil =>
    rw [relocateAll]
    rfl
  | cons token after =>
    have rest := separatorsIn_relocate shifts subscript (some token) after
    rw [Option.map_some] at rest
    rw [relocateAll, separatorsIn, separatorsIn, List.map_append, joinsPath_relocate shifts,
      isSubscript_relocate, separatorsOf_relocate shifts, rest]
    congr 1
    split
    · rw [Token.span_relocate, List.map_singleton, Span.relocate, shifts]
    · rfl

end

theorem writePoints_shift (separators : List Nat) (offset : Nat) (text : List Char) :
    writePoints (separators.map (· + distance)) (offset + distance) text =
      writePoints separators offset text := by
  have contained (place : Nat) :
      (separators.map (· + distance)).contains (place + distance) = separators.contains place := by
    rw [Bool.eq_iff_iff, List.contains_iff_mem, List.contains_iff_mem, List.mem_map]
    simp
  fun_induction writePoints separators offset text with
  | case1 | case2 => rfl
  | case3 offset first second rest separates ih =>
    rw [writePoints, contained, if_pos separates, Nat.add_right_comm, ih]
  | case4 offset first second rest separates ih =>
    rw [writePoints, contained, if_neg separates, Nat.add_right_comm, ih]

theorem hostCode_relocate (shifts : Position.Shifts move) (token : Token) :
    hostCode (token.relocate move) = hostCode token := by
  obtain ⟨distance, shifts⟩ := shifts
  have raw : (token.relocate move).raw = token.raw := by
    cases token <;> rw [Token.relocate] <;> rfl
  unfold hostCode
  rw [separatorsOf_relocate shifts, Token.span_relocate, Span.relocate, shifts, raw,
    writePoints_shift]

end

end Capture

end TypedMarkup
