import QueryPipeline.Interchange.Expr
import QueryPipeline.Proofs.DateTexts
import QueryPipeline.Proofs.Records
import QueryPipeline.Proofs.Subexpressions

/-!
# Interchange of expressions without loss

A literal is read from its interchange form when its doubles are finite and have a numeral that is read as the
double, and when its years are written without a sign. The same holds of the expressions that contain such literals.
A reader has to go less deep than its fuel, so the fuel counts the arrays and objects of the form.
-/

set_option autoImplicit false

namespace QueryPipeline

/-- The double is finite, and its numeral in an interchange text is read as the double. -/
def Double.isPortable (x : Double) : Bool := x.isFinite && (Json.toDouble? (Json.ofDouble x) == some x)

namespace Literal

mutual

/-- The doubles of a literal are portable, and its years have at most four digits. -/
def isPortable : Literal → Bool
  | float x => x.isPortable
  | date d => d.hasPlainYear
  | dateTime t => t.date.hasPlainYear
  | array items => itemsPortable items
  | _ => true

/-- All of some literals are portable. -/
def itemsPortable : List Literal → Bool
  | [] => true
  | item :: rest => item.isPortable && itemsPortable rest

end

/-- An integer of 64 bits is read back. -/
theorem toInt64?_ofInt (i : Int64) : Json.toInt64? (Json.ofInt i.toInt) = some i := by
  have hleast := i.le_toInt
  have hgreatest := i.toInt_lt
  have hpower : twoTo 63 = 9223372036854775808 := rfl
  have hrange : -(twoTo 63 : Int) ≤ i.toInt ∧ i.toInt < twoTo 63 := by
    rw [hpower]
    omega
  simp [Json.toInt64?, Json.ofInt, Json.toInt?, Json.Number.toInt?_ofInt, hrange]

/-- A byte is read back. -/
theorem toByte?_ofNat (b : UInt8) : Json.toByte? (Json.ofNat b.toNat) = some b := by
  have hgreatest : b.toNat < 256 := b.toNat_lt
  simp [Json.toByte?, Json.ofNat, Json.ofInt, Json.toInt?, Json.Number.toInt?_ofInt, hgreatest]

/-- A character is read back. -/
theorem toChar?_singleton (c : Char) : Json.toChar? (.string (String.singleton c)) = some c := by
  simp [Json.toChar?]

mutual

/-- A portable literal is read from its form by a reader that goes deep enough. -/
theorem read_toJson : ∀ (l : Literal) (fuel : Nat), l.isPortable = true → l.toJson.depth < fuel →
    read fuel l.toJson = some l
  | null, fuel + 1, _, _ => by simp [toJson, read, Json.Case.isBare]
  | boolean b, fuel + 1, _, _ => by simp [toJson, read]
  | integer i, fuel + 1, _, _ => by simp [toJson, read, toInt64?_ofInt]
  | float x, fuel + 1, h, _ => by
    simp only [isPortable, Double.isPortable, Bool.and_eq_true, beq_iff_eq] at h
    simp [toJson, read, h.2]
  | decimal digits, fuel + 1, _, _ => by simp [toJson, read]
  | text s, fuel + 1, _, _ => by simp [toJson, read]
  | char c, fuel + 1, _, _ => by simp [toJson, read, toChar?_singleton]
  | date d, fuel + 1, h, _ => by simp [toJson, read, Calendar.Date.parse?_text h]
  | dateTime t, fuel + 1, h, _ => by simp [toJson, read, Calendar.DateTime.parse?_text h]
  | bytes bs, fuel + 1, _, _ => by
    have hbytes := Json.toList?_ofList (fun b (_ : b ∈ bs) => toByte?_ofNat b)
    simp [toJson, read, hbytes]
  | array items, fuel + 1, h, hdepth => by
    simp only [toJson, Json.case, Json.depth, Json.membersDepth] at hdepth
    have hitems := mapM_itemsToJson items fuel h (by omega)
    simp [toJson, read, Json.toList?, hitems]

/-- The items of an array are read back with fuel enough for their depth. -/
theorem mapM_itemsToJson : ∀ (items : List Literal) (fuel : Nat), itemsPortable items = true →
    Json.itemsDepth (itemsToJson items) < fuel → (itemsToJson items).mapM (read fuel) = some items
  | [], _, _, _ => rfl
  | item :: rest, fuel, h, hdepth => by
    simp only [itemsPortable, Bool.and_eq_true] at h
    simp only [itemsToJson, Json.itemsDepth] at hdepth
    have hitem := read_toJson item fuel h.1 (by omega)
    have hrest := mapM_itemsToJson rest fuel h.2 (by omega)
    simp [itemsToJson, hitem, hrest]

end

mutual

/-- All numbers of a literal's form have digits as the format has them. -/
theorem toJson_plain : ∀ l : Literal, l.toJson.HasPlainNumbers
  | null => trivial
  | boolean _ | decimal _ | text _ | char _ | date _ | dateTime _ => ⟨trivial, trivial⟩
  | integer i => ⟨Json.Number.ofInt_isPlain i.toInt, trivial⟩
  | float x => by
    refine ⟨?_, trivial⟩
    unfold Json.ofDouble
    split
    · rename_i hx
      exact Json.Number.ofNumeral_write_isPlain hx
    · trivial
  | bytes bs => by
    refine ⟨Json.plainItems_iff.2 ?_, trivial⟩
    intro j hj
    obtain ⟨b, -, rfl⟩ := List.mem_map.1 hj
    exact Json.Number.ofInt_isPlain _
  | array items => ⟨itemsToJson_plain items, trivial⟩

/-- The items of an array hold plain numbers only. -/
theorem itemsToJson_plain : ∀ items : List Literal, Json.PlainItems (itemsToJson items)
  | [] => trivial
  | item :: rest => ⟨item.toJson_plain, itemsToJson_plain rest⟩

end

/-- A portable literal is read back. -/
theorem ofJson?_toJson {l : Literal} (h : l.isPortable = true) : Literal.ofJson? l.toJson = some l :=
  read_toJson l _ h (Nat.lt_succ_self _)

/-- A portable literal is read from its text, unless it is nested too deeply for the format. -/
theorem decode?_text {l : Literal} (h : l.isPortable = true) (hdepth : l.toJson.depth ≤ Json.depthLimit) :
    Json.decode? Literal.ofJson? l.toJson.text = some l :=
  Json.decode?_text l.toJson_plain hdepth (ofJson?_toJson h)

end Literal

/-- An operator between two operands is read back. -/
@[simp] theorem BinaryOp.ofJson?_toJson (op : BinaryOp) : BinaryOp.ofJson? op.toJson = some op := by
  cases op <;> rfl

/-- An operator before an operand is read back. -/
@[simp] theorem UnaryOp.ofJson?_toJson (op : UnaryOp) : UnaryOp.ofJson? op.toJson = some op := by
  cases op <;> rfl

namespace Expr

/-- A constant is portable. -/
def hasPortableConstant : Expr → Bool
  | constant value => value.isPortable
  | _ => true

/-- All constants in an expression are portable. -/
def isPortable (e : Expr) : Bool := e.everywhere hasPortableConstant

/-- No expression is written as null. -/
theorem toJson_ne_null (e : Expr) : e.toJson ≠ .null := by
  cases e <;> simp [toJson, Json.case]

/-- Reads an expression whose parts `decoder` reads. -/
def readWith (decoder : Json.Decoder Expr) : Json.Decoder Expr := fun j => do
  let c ← j.toCase?
  readContent decoder c.name (← c.content)

/-- One more unit of fuel reads one level more. -/
theorem read_succ (fuel : Nat) : read (fuel + 1) = readWith (read fuel) := rfl

/-- An expression that is written as a form with its content is read by its form. -/
theorem readWith_case (decoder : Json.Decoder Expr) (form : String) (content : Json) :
    readWith decoder (Json.case form content) = readContent decoder form content := rfl

/-- A decoder reads the portable expressions whose forms nest less deep than a bound. -/
def ReadsBelow (decoder : Json.Decoder Expr) (n : Nat) : Prop :=
  ∀ e : Expr, e.isPortable = true → e.toJson.depth < n → decoder e.toJson = some e

namespace ReadsBelow

variable {decoder : Json.Decoder Expr} {n : Nat}

/-- The value that a member or method belongs to is read from its form, also when there is none. -/
theorem receiver (h : ReadsBelow decoder n) {receiver : Option Expr}
    (hportable : everywhereReceiver hasPortableConstant receiver = true)
    (hdepth : (receiverToJson receiver).depth < n) :
    Json.toOption? decoder (receiverToJson receiver) = some receiver := by
  cases receiver with
  | none => rfl
  | some e => rw [receiverToJson, Json.toOption?_of_ne_null e.toJson_ne_null, h e hportable hdepth, Option.map_some]

/-- Arguments that are not nested too deeply are read back. -/
theorem args (h : ReadsBelow decoder n) {args : List Expr}
    (hportable : everywhereArgs hasPortableConstant args = true)
    (hdepth : Json.itemsDepth (argsToJson args) < n) : (argsToJson args).mapM decoder = some args := by
  induction args with
  | nil => rfl
  | cons e rest ih =>
    simp only [everywhereArgs, Bool.and_eq_true] at hportable
    simp only [argsToJson, Json.itemsDepth] at hdepth
    have he := h e hportable.1 (by omega)
    have hrest := ih hportable.2 (by omega)
    simp [argsToJson, he, hrest]

/-- The members of a shape are read from their forms, also those without a name. -/
theorem members (h : ReadsBelow decoder n) {members : List ShapeMember}
    (hportable : everywhereMembers hasPortableConstant members = true)
    (hdepth : Json.itemsDepth (membersToJson members) < n) :
    (membersToJson members).mapM (readMember decoder) = some members := by
  induction members with
  | nil => rfl
  | cons member rest ih =>
    obtain ⟨name, e⟩ := member
    simp only [everywhereMembers, Bool.and_eq_true] at hportable
    simp only [membersToJson, Json.itemsDepth, Json.depth, Json.membersDepth] at hdepth
    have he := h e hportable.1 (by omega)
    have hrest := ih hportable.2 (by omega)
    have hname : Json.toOption? Json.toString? (Json.ofOption Json.string name) = some name :=
      Json.toOption?_ofOption (by simp) (by simp)
    simp [membersToJson, readMember, Json.Record.required?, Json.Record.optional?, List.lookup_cons, hname, he, hrest]

/-- An expression is read from its form by a reader of its parts. -/
theorem step (h : ReadsBelow decoder n) {e : Expr} (hportable : e.isPortable = true) (hdepth : e.toJson.depth ≤ n) :
    readWith decoder e.toJson = some e := by
  cases e with
  | param name =>
    rw [toJson, readWith_case]
    simp [readContent]
  | constant value =>
    rw [toJson, readWith_case]
    simp [readContent, Literal.ofJson?_toJson hportable]
  | parameter name type =>
    rw [toJson, readWith_case]
    simp [readContent, Json.Record.required?, List.lookup_cons]
  | member receiver name =>
    simp only [isPortable, everywhere, Bool.and_eq_true] at hportable
    simp only [toJson, Json.case, Json.depth, Json.membersDepth] at hdepth
    have hreceiver := h.receiver hportable.2 (by omega)
    rw [toJson, readWith_case]
    simp [readContent, Json.Record.required?, Json.Record.optional?, List.lookup_cons, hreceiver]
  | shape members =>
    simp only [isPortable, everywhere, Bool.and_eq_true] at hportable
    simp only [toJson, Json.case, Json.depth, Json.membersDepth] at hdepth
    have hmembers := h.members hportable.2 (by omega)
    rw [toJson, readWith_case]
    simp [readContent, Json.toList?, hmembers]
  | binary op left right =>
    simp only [isPortable, everywhere, Bool.and_eq_true] at hportable
    simp only [toJson, Json.case, Json.depth, Json.membersDepth] at hdepth
    have hleft := h left hportable.1.2 (by omega)
    have hright := h right hportable.2 (by omega)
    rw [toJson, readWith_case]
    simp [readContent, Json.Record.required?, List.lookup_cons, hleft, hright]
  | unary op operand =>
    simp only [isPortable, everywhere, Bool.and_eq_true] at hportable
    simp only [toJson, Json.case, Json.depth, Json.membersDepth] at hdepth
    have hoperand := h operand hportable.2 (by omega)
    rw [toJson, readWith_case]
    simp [readContent, Json.Record.required?, List.lookup_cons, hoperand]
  | call receiver function args =>
    simp only [isPortable, everywhere, Bool.and_eq_true] at hportable
    simp only [toJson, Json.case, Json.depth, Json.membersDepth] at hdepth
    have hreceiver := h.receiver hportable.1.2 (by omega)
    have hargs := h.args hportable.2 (by omega)
    rw [toJson, readWith_case]
    simp [readContent, Json.Record.required?, Json.Record.optional?, List.lookup_cons, Json.toList?, hreceiver, hargs]
  | conditional test ifTrue ifFalse =>
    simp only [isPortable, everywhere, Bool.and_eq_true] at hportable
    simp only [toJson, Json.case, Json.depth, Json.membersDepth] at hdepth
    have htest := h test hportable.1.1.2 (by omega)
    have htrue := h ifTrue hportable.1.2 (by omega)
    have hfalse := h ifFalse hportable.2 (by omega)
    rw [toJson, readWith_case]
    simp [readContent, Json.Record.required?, List.lookup_cons, htest, htrue, hfalse]
  | convert operand type =>
    simp only [isPortable, everywhere, Bool.and_eq_true] at hportable
    simp only [toJson, Json.case, Json.depth, Json.membersDepth] at hdepth
    have hoperand := h operand hportable.2 (by omega)
    rw [toJson, readWith_case]
    simp [readContent, Json.Record.required?, List.lookup_cons, hoperand]
  | entity name path =>
    rw [toJson, readWith_case]
    simp [readContent, Json.Record.required?, List.lookup_cons]
  | binding path type =>
    rw [toJson, readWith_case]
    simp [readContent, Json.Record.required?, List.lookup_cons]
  | ensureNonEmpty inner =>
    simp only [isPortable, everywhere, Bool.and_eq_true] at hportable
    simp only [toJson, Json.case, Json.depth, Json.membersDepth] at hdepth
    have hinner := h inner hportable.2 (by omega)
    rw [toJson, readWith_case]
    simp [readContent, hinner]

end ReadsBelow

/-- A reader with fuel reads the portable expressions that do not nest deeper. -/
theorem readsBelow_read (fuel : Nat) : ReadsBelow (read fuel) fuel := by
  induction fuel with
  | zero =>
    intro e _ hdepth
    omega
  | succ fuel ih =>
    intro e hportable hdepth
    rw [read_succ, ih.step hportable (by omega)]

mutual

/-- All numbers of an expression's form have digits as the format has them. -/
theorem toJson_plain : ∀ e : Expr, e.toJson.HasPlainNumbers
  | param _ => ⟨trivial, trivial⟩
  | constant value => ⟨value.toJson_plain, trivial⟩
  | parameter _ type => ⟨⟨trivial, type.toJson_plain, trivial⟩, trivial⟩
  | member receiver name => ⟨⟨receiverToJson_plain receiver, name.toJson_plain, trivial⟩, trivial⟩
  | shape members => ⟨membersToJson_plain members, trivial⟩
  | binary _ left right => ⟨⟨trivial, left.toJson_plain, right.toJson_plain, trivial⟩, trivial⟩
  | unary _ operand => ⟨⟨trivial, operand.toJson_plain, trivial⟩, trivial⟩
  | call receiver function args =>
    ⟨⟨receiverToJson_plain receiver, function.toJson_plain, argsToJson_plain args, trivial⟩, trivial⟩
  | conditional test ifTrue ifFalse =>
    ⟨⟨test.toJson_plain, ifTrue.toJson_plain, ifFalse.toJson_plain, trivial⟩, trivial⟩
  | convert operand type => ⟨⟨operand.toJson_plain, type.toJson_plain, trivial⟩, trivial⟩
  | entity _ path => ⟨⟨trivial, path.toJson_plain, trivial⟩, trivial⟩
  | binding path type => ⟨⟨path.toJson_plain, type.toJson_plain, trivial⟩, trivial⟩
  | ensureNonEmpty inner => ⟨inner.toJson_plain, trivial⟩

/-- The value that a member belongs to holds plain numbers only. -/
theorem receiverToJson_plain : ∀ receiver : Option Expr, (receiverToJson receiver).HasPlainNumbers
  | none => trivial
  | some e => e.toJson_plain

/-- Arguments hold plain numbers only. -/
theorem argsToJson_plain : ∀ args : List Expr, Json.PlainItems (argsToJson args)
  | [] => trivial
  | e :: rest => ⟨e.toJson_plain, argsToJson_plain rest⟩

/-- The members of a shape hold plain numbers only. -/
theorem membersToJson_plain : ∀ members : List ShapeMember, Json.PlainItems (membersToJson members)
  | [] => trivial
  | ⟨none, e⟩ :: rest | ⟨some _, e⟩ :: rest =>
    ⟨⟨trivial, e.toJson_plain, trivial⟩, membersToJson_plain rest⟩

end

/-- A portable expression is read back. -/
theorem ofJson?_toJson {e : Expr} (h : e.isPortable = true) : Expr.ofJson? e.toJson = some e :=
  readsBelow_read _ e h (Nat.lt_succ_self _)

/-- A portable expression is read from its text, unless it is nested too deeply for the format. -/
theorem decode?_text {e : Expr} (h : e.isPortable = true) (hdepth : e.toJson.depth ≤ Json.depthLimit) :
    Json.decode? Expr.ofJson? e.toJson.text = some e :=
  Json.decode?_text e.toJson_plain hdepth (ofJson?_toJson h)

end Expr

namespace Lambda

/-- All constants in the body of a function are portable. -/
def isPortable (f : Lambda) : Bool := f.body.isPortable

/-- No lambda is written as null. -/
theorem toJson_ne_null (f : Lambda) : f.toJson ≠ .null := by
  simp [toJson]

/-- A portable lambda is read back. -/
theorem ofJson?_toJson {f : Lambda} (h : f.isPortable = true) : Lambda.ofJson? f.toJson = some f := by
  have hbody := Expr.ofJson?_toJson h
  simp [toJson, ofJson?, Json.Record.required?, List.lookup_cons, hbody]

/-- A lambda holds plain numbers only. -/
theorem toJson_plain (f : Lambda) : f.toJson.HasPlainNumbers := ⟨trivial, f.body.toJson_plain, trivial⟩

/-- A portable function is read from its text, unless it is nested too deeply for the format. -/
theorem decode?_text {f : Lambda} (h : f.isPortable = true) (hdepth : f.toJson.depth ≤ Json.depthLimit) :
    Json.decode? Lambda.ofJson? f.toJson.text = some f :=
  Json.decode?_text f.toJson_plain hdepth (ofJson?_toJson h)

end Lambda

end QueryPipeline
