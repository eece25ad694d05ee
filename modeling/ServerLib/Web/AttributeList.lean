import ServerLib.Web.HttpMessage
import ServerLib.Web.WebPercent

/-!
# `semicolon_separated_attributes`

`parse` is an automaton that remembers up to three positions in the string. It does what an
automaton does that collects the name and the value themselves. A value begins at the character
behind `=`, whatever that is: an attribute with an empty value that is not quoted is lost at the
end of the string, and in front of another one it takes the separator and what follows it as its
value.
-/
namespace ServerLib.Web.AttributeList

open Network (Bytes)

/-- The positions of the loop, where `none` is `npos`, and the attributes emplaced. -/
structure AttributeScan where
  nameStartPos : Option Nat
  nameEndPos : Option Nat
  valueStartPos : Option Nat
  result : Header

def attributeTurn (str : Bytes) (c : Nat) (chr : UInt8) (scan : AttributeScan) :
    Except Failure AttributeScan :=
  match scan.nameStartPos, scan.nameEndPos, scan.valueStartPos with
  | none, _, _ =>
    if chr ≠ 32 ∧ chr ≠ 59 then pure { scan with nameStartPos := some c } else pure scan
  | some nameStart, none, _ =>
    if chr = 59 then do
      let name ← substr str nameStart (sizeSub c nameStart)
      pure { scan with nameStartPos := none, result := scan.result ++ [(name, [])] }
    else if chr = 61 then pure { scan with nameEndPos := some c }
    else pure scan
  | some _, some _, none =>
    if chr = 34 ∧ c + 1 < str.length then pure { scan with valueStartPos := some (c + 1) }
    else pure { scan with valueStartPos := some c }
  | some nameStart, some nameEnd, some valueStart =>
    if chr = 34 ∨ chr = 59 then do
      let name ← substr str nameStart (sizeSub nameEnd nameStart)
      let value ← substr str valueStart (sizeSub c valueStart)
      pure ⟨none, none, none, scan.result ++ [(name, WebPercent.decode value)]⟩
    else pure scan

def scanAttributes (str : Bytes) :
    Nat → Bytes → AttributeScan → Except Failure AttributeScan
  | _, [], scan => pure scan
  | c, chr :: rest, scan => do
    let scan ← attributeTurn str c chr scan
    scanAttributes str (c + 1) rest scan

/-- What follows the loop. A `substr` without a count takes the rest of the string. -/
def lastAttribute (str : Bytes) (scan : AttributeScan) : Except Failure Header :=
  match scan.nameStartPos, scan.nameEndPos, scan.valueStartPos with
  | none, _, _ => pure scan.result
  | some nameStart, none, _ => do
    let name ← substr str nameStart str.length
    pure (scan.result ++ [(name, [])])
  | some _, some _, none => pure scan.result
  | some nameStart, some nameEnd, some valueStart => do
    let name ← substr str nameStart (sizeSub nameEnd nameStart)
    let value ←
      if str.getLast? = some 34 then substr str valueStart (sizeSub str.length 1)
      else substr str valueStart str.length
    pure (scan.result ++ [(name, WebPercent.decode value)])

def parse (str : Bytes) : Except Failure Header := do
  let scan ← scanAttributes str 0 str ⟨none, none, none, []⟩
  lastAttribute str scan

/-! ### Texts instead of positions -/

/-- What has been read of an attribute. -/
inductive Reading where
  | between
  | name (text : Bytes)
  | equals (name : Bytes)
  | value (name text : Bytes)

/-- The next state, and the attribute that ends, if one does. -/
def readTurn (chr : UInt8) (last : Bool) : Reading → Reading × Header
  | .between => (if chr ≠ 32 ∧ chr ≠ 59 then .name [chr] else .between, [])
  | .name text =>
    if chr = 59 then (.between, [(text, [])])
    else (if chr = 61 then .equals text else .name (text ++ [chr]), [])
  | .equals name => (.value name (if chr = 34 ∧ last = false then [] else [chr]), [])
  | .value name text =>
    if chr = 34 ∨ chr = 59 then (.between, [(name, WebPercent.decode text)])
    else (.value name (text ++ [chr]), [])

def readAttributes : Reading → Bytes → Header
  | .name text, [] => [(text, [])]
  | .value name text, [] => [(name, WebPercent.decode text)]
  | .between, [] => []
  | .equals _, [] => []
  | reading, chr :: rest =>
    (readTurn chr rest.isEmpty reading).2 ++
      readAttributes (readTurn chr rest.isEmpty reading).1 rest

theorem readAttributes_cons (reading : Reading) (chr : UInt8) (rest : Bytes) :
    readAttributes reading (chr :: rest) = (readTurn chr rest.isEmpty reading).2 ++
      readAttributes (readTurn chr rest.isEmpty reading).1 rest := by
  cases reading <;> rfl

/-- The positions say where in the characters that are behind the scan the texts are. -/
inductive Positions : Bytes → Reading → AttributeScan → Prop
  | between (behind : Bytes) (result : Header) :
    Positions behind .between ⟨none, none, none, result⟩
  | name (front text : Bytes) (result : Header) :
    Positions (front ++ text) (.name text) ⟨some front.length, none, none, result⟩
  | equals (front name : Bytes) (result : Header) :
    Positions (front ++ (name ++ [61])) (.equals name)
      ⟨some front.length, some (front.length + name.length), none, result⟩
  | value (front name mark text : Bytes) (result : Header) :
    Positions (front ++ (name ++ 61 :: (mark ++ text))) (.value name text)
      ⟨some front.length, some (front.length + name.length),
        some (front.length + name.length + 1 + mark.length), result⟩

theorem substr_name (front name back : Bytes) :
    substr (front ++ (name ++ back)) front.length
      (sizeSub (front.length + name.length) front.length) = .ok name := by
  rw [sizeSub_of_le (Nat.le_add_right _ _), Nat.add_sub_cancel_left]
  exact substr_middle front name back

theorem length_marked (front name mark : Bytes) :
    (front ++ (name ++ 61 :: mark)).length = front.length + name.length + 1 + mark.length := by
  simp only [List.length_append, List.length_cons]
  omega

theorem substr_value (front name mark text back : Bytes) :
    substr (front ++ (name ++ 61 :: (mark ++ text)) ++ back)
      (front.length + name.length + 1 + mark.length)
      (sizeSub (front ++ (name ++ 61 :: (mark ++ text))).length
        (front.length + name.length + 1 + mark.length)) = .ok text := by
  have size : (front ++ (name ++ 61 :: (mark ++ text))).length =
      front.length + name.length + 1 + mark.length + text.length := by
    rw [length_marked, List.length_append, Nat.add_assoc _ mark.length]
  have parted := substr_middle (front ++ (name ++ 61 :: mark)) text back
  rw [length_marked] at parted
  rw [size, sizeSub_of_le (Nat.le_add_right _ _), Nat.add_sub_cancel_left, ← parted]
  simp

/-- The positions stay those of the texts. -/
theorem attributeTurn_positions {behind : Bytes} {reading : Reading} {scan : AttributeScan}
    (here : Positions behind reading scan) (chr : UInt8) (rest : Bytes) :
    ∃ scan', attributeTurn (behind ++ chr :: rest) behind.length chr scan = .ok scan' ∧
      Positions (behind ++ [chr]) (readTurn chr rest.isEmpty reading).1 scan' ∧
      scan'.result = scan.result ++ (readTurn chr rest.isEmpty reading).2 := by
  cases here with
  | between behind result =>
    simp only [attributeTurn, readTurn, List.append_nil]
    split
    · exact ⟨_, rfl, .name behind [chr] result, rfl⟩
    · exact ⟨_, rfl, .between _ result, rfl⟩
  | name front text result =>
    simp only [attributeTurn, readTurn]
    split
    · -- a semicolon ends a name without a value
      have named := substr_name front text (chr :: rest)
      rw [← List.append_assoc, ← List.length_append] at named
      rw [named]
      exact ⟨_, rfl, .between _ _, rfl⟩
    · rw [List.append_assoc, List.append_nil]
      split
      next equals =>
        subst equals
        exact ⟨_, rfl, by rw [List.length_append]; exact .equals front text result, rfl⟩
      · exact ⟨_, rfl, .name front (text ++ [chr]) result, rfl⟩
  | equals front name result =>
    have size : (front ++ (name ++ [61])).length = front.length + name.length + 1 := by
      rw [length_marked]
      rfl
    -- a quotation mark opens a value only if something is behind it
    have ahead : (front ++ (name ++ [61])).length + 1 <
        (front ++ (name ++ [61]) ++ chr :: rest).length ↔ rest.isEmpty = false := by
      rw [@List.length_append _ _ (chr :: rest), size]
      cases rest <;> simp
    simp only [attributeTurn, readTurn, ahead, List.append_nil]
    split
    next quoted =>
      obtain ⟨rfl, -⟩ := quoted
      refine ⟨_, rfl, ?_, rfl⟩
      have place := Positions.value front name [34] [] result
      rw [size]
      simpa using place
    next =>
      refine ⟨_, rfl, ?_, rfl⟩
      have place := Positions.value front name [] [chr] result
      rw [size]
      simpa using place
  | value front name mark text result =>
    simp only [attributeTurn, readTurn]
    split
    · -- a semicolon or a quotation mark ends the value
      have named := substr_name front name (61 :: (mark ++ text) ++ chr :: rest)
      rw [← List.append_assoc name, ← List.append_assoc front] at named
      rw [named, substr_value]
      exact ⟨_, rfl, .between _ _, rfl⟩
    · refine ⟨_, rfl, ?_, (List.append_nil _).symm⟩
      have place := Positions.value front name mark (text ++ [chr]) result
      simpa using place

theorem lastAttribute_positions {behind : Bytes} {reading : Reading} {scan : AttributeScan}
    (here : Positions behind reading scan) :
    lastAttribute behind scan = .ok (scan.result ++ readAttributes reading []) := by
  cases here with
  | between behind result => exact congrArg Except.ok (List.append_nil result).symm
  | name front text result =>
    have named : substr (front ++ text) front.length (front ++ text).length = .ok text :=
      substr_rest front (by simp)
    simp only [lastAttribute, named]
    rfl
  | equals front name result => exact congrArg Except.ok (List.append_nil result).symm
  | value front name mark text result =>
    -- Both counts are long enough: there is the `=` in front of the value.
    have rest : ∀ {n : Nat}, text.length ≤ n → substr (front ++ (name ++ 61 :: (mark ++ text)))
        (front.length + name.length + 1 + mark.length) n = .ok text := by
      intro n enough
      have parted := substr_rest (front ++ (name ++ 61 :: mark)) enough
      rw [length_marked] at parted
      rw [← parted]
      simp
    have long : text.length + 1 ≤ (front ++ (name ++ 61 :: (mark ++ text))).length := by
      simp only [List.length_append, List.length_cons]
      omega
    simp only [lastAttribute, substr_name]
    change (if _ then _ else _) = _
    split
    · rw [sizeSub_of_le (by omega), rest (by omega)]
      rfl
    · rw [rest (by omega)]
      rfl

theorem scanAttributes_positions {behind : Bytes} {reading : Reading} {scan : AttributeScan}
    (here : Positions behind reading scan) (rest : Bytes) :
    (scanAttributes (behind ++ rest) behind.length rest scan >>= lastAttribute (behind ++ rest)) =
      .ok (scan.result ++ readAttributes reading rest) := by
  induction rest generalizing behind reading scan with
  | nil =>
    rw [List.append_nil]
    exact lastAttribute_positions here
  | cons chr rest ih =>
    obtain ⟨scan', turn, there, emplaced⟩ := attributeTurn_positions here chr rest
    have next := ih there
    rw [List.append_assoc, List.singleton_append, List.length_append, emplaced,
      List.append_assoc, ← readAttributes_cons] at next
    rw [scanAttributes, turn]
    exact next

theorem parse_eq (str : Bytes) : parse str = .ok (readAttributes .between str) :=
  scanAttributes_positions (.between [] []) str

/-! ### What the automaton reads -/

theorem readAttributes_name {text : Bytes} (clean : 59 ∉ text ∧ 61 ∉ text) (front rest : Bytes) :
    readAttributes (.name front) (text ++ rest) = readAttributes (.name (front ++ text)) rest := by
  induction text generalizing front with
  | nil => rw [List.nil_append, List.append_nil]
  | cons chr text ih =>
    simp only [List.mem_cons, not_or] at clean
    rw [List.cons_append, readAttributes_cons, readTurn, if_neg (Ne.symm clean.1.1),
      if_neg (Ne.symm clean.2.1), List.nil_append, ih ⟨clean.1.2, clean.2.2⟩,
      List.append_assoc, List.singleton_append]

theorem readAttributes_value {text : Bytes} (clean : 34 ∉ text ∧ 59 ∉ text) (name front : Bytes)
    (rest : Bytes) : readAttributes (.value name front) (text ++ rest) =
      readAttributes (.value name (front ++ text)) rest := by
  induction text generalizing front with
  | nil => rw [List.nil_append, List.append_nil]
  | cons chr text ih =>
    simp only [List.mem_cons, not_or] at clean
    rw [List.cons_append, readAttributes_cons, readTurn,
      if_neg (not_or_intro (Ne.symm clean.1.1) (Ne.symm clean.2.1)), List.nil_append,
      ih ⟨clean.1.2, clean.2.2⟩, List.append_assoc, List.singleton_append]

/-- A name begins at the first character that is neither a space nor a semicolon. -/
theorem readAttributes_begin {text : Bytes} (occupied : text ≠ []) (visible : 32 ∉ text)
    (clean : 59 ∉ text ∧ 61 ∉ text) (rest : Bytes) :
    readAttributes .between (text ++ rest) = readAttributes (.name text) rest := by
  cases text with
  | nil => exact absurd rfl occupied
  | cons chr text =>
    simp only [List.mem_cons, not_or] at visible clean
    rw [List.cons_append, readAttributes_cons, readTurn,
      if_pos ⟨Ne.symm visible.1, Ne.symm clean.1.1⟩, List.nil_append,
      readAttributes_name ⟨clean.1.2, clean.2.2⟩, List.singleton_append]

/-! ### Attributes -/

/-- How the value of an attribute is written. -/
inductive Form where
  | bare
  | plain (value : Bytes)
  | quoted (value : Bytes)
  deriving DecidableEq

def Form.value : Form → Bytes
  | .bare => []
  | .plain value => value
  | .quoted value => value

def IsName (name : Bytes) : Prop := name ≠ [] ∧ 32 ∉ name ∧ 59 ∉ name ∧ 61 ∉ name ∧ 34 ∉ name

instance IsName.decidable (name : Bytes) : Decidable (IsName name) :=
  inferInstanceAs (Decidable (_ ∧ _))

structure Attribute where
  name : Bytes
  form : Form
  named : IsName name

def Attribute.field (attr : Attribute) : Bytes × Bytes :=
  (attr.name, attr.form.value)

def Attribute.text (attr : Attribute) : Bytes :=
  attr.name ++
    match attr.form with
    | .bare => []
    | .plain value => 61 :: WebPercent.encode value
    | .quoted value => 61 :: 34 :: (WebPercent.encode value ++ [34])

def render (attributes : List Attribute) : Bytes :=
  (ascii "; ").intercalate (attributes.map Attribute.text)

/-- What follows an attribute: the end or a separator. -/
inductive Separated : Bytes → Prop
  | last : Separated []
  | separator (rest : Bytes) : Separated (59 :: rest)

theorem readAttributes_semicolon (rest : Bytes) :
    readAttributes .between (59 :: rest) = readAttributes .between rest := by
  rw [readAttributes_cons]
  rfl

theorem readAttributes_space (rest : Bytes) :
    readAttributes .between (32 :: rest) = readAttributes .between rest := by
  rw [readAttributes_cons]
  rfl

theorem readAttributes_name_separated (name : Bytes) {rest : Bytes} (behind : Separated rest) :
    readAttributes (.name name) rest = (name, []) :: readAttributes .between rest := by
  cases behind with
  | last => rfl
  | separator rest =>
    rw [readAttributes_cons, readAttributes_semicolon]
    rfl

theorem readAttributes_value_separated (name text : Bytes) {rest : Bytes}
    (behind : Separated rest) : readAttributes (.value name text) rest =
      (name, WebPercent.decode text) :: readAttributes .between rest := by
  cases behind with
  | last => rfl
  | separator rest =>
    rw [readAttributes_cons, readAttributes_semicolon]
    rfl

/-- A value begins with any character that is no quotation mark, a semicolon also. -/
theorem readAttributes_equals {chr : UInt8} (unquoted : chr ≠ 34) (name rest : Bytes) :
    readAttributes (.equals name) (chr :: rest) = readAttributes (.value name [chr]) rest := by
  rw [readAttributes_cons, readTurn, if_neg fun quote => unquoted quote.1, List.nil_append]

theorem readAttributes_encoded {name value : Bytes} (occupied : value ≠ []) {rest : Bytes}
    (behind : Separated rest) :
    readAttributes (.equals name) (WebPercent.encode value ++ rest) =
      (name, value) :: readAttributes .between rest := by
  have unquoted : 34 ∉ WebPercent.encode value := WebPercent.notMem_encode value (by decide)
  have whole : 59 ∉ WebPercent.encode value := WebPercent.notMem_encode value (by decide)
  have read := WebPercent.decode_encode value
  have written : WebPercent.encode value ≠ [] := mt WebPercent.encode_eq_nil.mp occupied
  generalize WebPercent.encode value = text at unquoted whole read written ⊢
  -- its first character is taken as it is, and the others up to a semicolon
  cases text with
  | nil => exact absurd rfl written
  | cons chr text =>
    simp only [List.mem_cons, not_or] at unquoted whole
    rw [List.cons_append, readAttributes_equals (Ne.symm unquoted.1),
      readAttributes_value ⟨unquoted.2, whole.2⟩, List.singleton_append,
      readAttributes_value_separated _ _ behind, read]

theorem readAttributes_quoted (name value rest : Bytes) :
    readAttributes (.equals name) (34 :: (WebPercent.encode value ++ 34 :: rest)) =
      (name, value) :: readAttributes .between rest := by
  have unquoted : 34 ∉ WebPercent.encode value := WebPercent.notMem_encode value (by decide)
  have whole : 59 ∉ WebPercent.encode value := WebPercent.notMem_encode value (by decide)
  have inner : (WebPercent.encode value ++ 34 :: rest).isEmpty = false := by simp
  rw [readAttributes_cons, readTurn, if_pos ⟨rfl, inner⟩, List.nil_append,
    readAttributes_value ⟨unquoted, whole⟩, List.nil_append, readAttributes_cons, readTurn,
    if_pos (.inl rfl), WebPercent.decode_encode]
  rfl

theorem readAttributes_name_equals (name rest : Bytes) :
    readAttributes (.name name) (61 :: rest) = readAttributes (.equals name) rest := by
  rw [readAttributes_cons]
  rfl

/-- Every attribute but one with an empty value is read as it was written. -/
theorem readAttributes_attribute (attr : Attribute) (kept : attr.form ≠ .plain []) {rest : Bytes}
    (behind : Separated rest) :
    readAttributes .between (attr.text ++ rest) = attr.field :: readAttributes .between rest := by
  obtain ⟨name, form, occupied, visible, whole, uncut, _⟩ := attr
  simp only [Attribute.text, Attribute.field, List.append_assoc]
  rw [readAttributes_begin occupied visible ⟨whole, uncut⟩]
  cases form with
  | bare => exact readAttributes_name_separated name behind
  | plain value =>
    have some_value : value ≠ [] := fun empty => kept (congrArg Form.plain empty)
    rw [List.cons_append, readAttributes_name_equals]
    exact readAttributes_encoded some_value behind
  | quoted value =>
    rw [List.cons_append, readAttributes_name_equals, List.cons_append, List.append_assoc]
    exact readAttributes_quoted name value rest

/-! ### Lists of attributes -/

/-- What is rendered behind the first attribute. -/
def tail (attributes : List Attribute) : Bytes :=
  if attributes = [] then [] else 59 :: 32 :: render attributes

theorem render_cons (attr : Attribute) (attributes : List Attribute) :
    render (attr :: attributes) = attr.text ++ tail attributes := by
  cases attributes with
  | nil => simp [render, tail]
  | cons next attributes => simp [render, tail, ascii]

theorem separated_tail (attributes : List Attribute) : Separated (tail attributes) := by
  rw [tail]
  split
  · exact .last
  · exact .separator _

theorem readAttributes_tail (attributes : List Attribute) :
    readAttributes .between (tail attributes) = readAttributes .between (render attributes) := by
  rw [tail]
  split
  next empty =>
    rw [empty]
    rfl
  next => rw [readAttributes_semicolon, readAttributes_space]

theorem readAttributes_render {attributes : List Attribute}
    (kept : ∀ attr ∈ attributes, attr.form ≠ .plain []) :
    readAttributes .between (render attributes) = attributes.map Attribute.field := by
  induction attributes with
  | nil => rfl
  | cons attr attributes ih =>
    rw [render_cons, readAttributes_attribute attr (kept attr List.mem_cons_self)
      (separated_tail attributes), readAttributes_tail,
      ih fun other among => kept other (List.mem_cons_of_mem attr among), List.map_cons]

/-! ### An empty value without quotes -/

/-- The attribute is written as a name and `=`. -/
theorem readAttributes_lost (attr : Attribute) (lost : attr.form = .plain []) (rest : Bytes) :
    readAttributes .between (attr.text ++ rest) = readAttributes (.equals attr.name) rest := by
  obtain ⟨occupied, visible, whole, uncut, -⟩ := attr.named
  rw [Attribute.text, lost, List.append_assoc, readAttributes_begin occupied visible ⟨whole, uncut⟩]
  exact readAttributes_name_equals attr.name rest

/-- The value goes on up to the next semicolon, through the attribute that follows. -/
theorem readAttributes_swallows (name : Bytes) (next : Attribute)
    (unquoted : ∀ value, next.form ≠ .quoted value) {rest : Bytes} (behind : Separated rest) :
    readAttributes (.equals name) (59 :: 32 :: (next.text ++ rest)) =
      (name, WebPercent.decode (59 :: 32 :: next.text)) :: readAttributes .between rest := by
  -- nothing in the next attribute ends the value
  have clean : 34 ∉ 32 :: next.text ∧ 59 ∉ 32 :: next.text := by
    obtain ⟨-, -, whole, -, bare⟩ := next.named
    rw [Attribute.text]
    cases form : next.form with
    | bare => simp [whole, bare]
    | plain value =>
      have closed : 34 ∉ WebPercent.encode value := WebPercent.notMem_encode value (by decide)
      have inner : 59 ∉ WebPercent.encode value := WebPercent.notMem_encode value (by decide)
      simp [whole, bare, closed, inner]
    | quoted value => exact absurd form (unquoted value)
  rw [readAttributes_equals (by decide), ← List.cons_append, readAttributes_value clean,
    List.singleton_append, readAttributes_value_separated _ _ behind]

/-- The value ends at a quotation mark of the attribute that follows, so that what this one has
between its marks is read as a name, with the second mark. -/
theorem readAttributes_breaks (name : Bytes) (next : Attribute) {value : Bytes}
    (quoted : next.form = .quoted value) {rest : Bytes} (behind : Separated rest) :
    ∃ field ∈ readAttributes (.equals name) (59 :: 32 :: (next.text ++ rest)), 34 ∈ field.1 := by
  obtain ⟨-, -, whole, -, bare⟩ := next.named
  -- up to the quotation mark nothing ends the value
  have clean : 34 ∉ 32 :: (next.name ++ [61]) ∧ 59 ∉ 32 :: (next.name ++ [61]) := by
    simp [whole, bare]
  have visible : 32 ∉ WebPercent.encode value := WebPercent.notMem_encode value (by decide)
  have inner : 59 ∉ WebPercent.encode value := WebPercent.notMem_encode value (by decide)
  have uncut : 61 ∉ WebPercent.encode value := WebPercent.notMem_encode value (by decide)
  have parts : 59 :: 32 :: (next.text ++ rest) =
      59 :: (32 :: (next.name ++ [61]) ++ 34 :: (WebPercent.encode value ++ [34] ++ rest)) := by
    simp [Attribute.text, quoted]
  refine ⟨(WebPercent.encode value ++ [34], []), ?_, by simp⟩
  rw [parts, readAttributes_equals (by decide), readAttributes_value clean, readAttributes_cons,
    readTurn, if_pos (.inl rfl),
    readAttributes_begin (by simp) (by simp [visible]) ⟨by simp [inner], by simp [uncut]⟩,
    readAttributes_name_separated _ behind]
  simp

/-- What is read has a name that is none, or no more attributes than were rendered, and fewer if
one of them has such a value. -/
def ReadsShort (attributes : List Attribute) : Prop :=
  (∃ field ∈ readAttributes .between (render attributes), 34 ∈ field.1) ∨
    (readAttributes .between (render attributes)).length ≤ attributes.length ∧
    ((∃ attr ∈ attributes, attr.form = .plain []) →
      (readAttributes .between (render attributes)).length < attributes.length)

theorem ReadsShort.cons {attributes : List Attribute} (short : ReadsShort attributes)
    {attr : Attribute} (kept : attr.form ≠ .plain []) : ReadsShort (attr :: attributes) := by
  rw [ReadsShort, render_cons, readAttributes_attribute attr kept (separated_tail attributes),
    readAttributes_tail]
  rcases short with ⟨field, among, marked⟩ | ⟨short, shorter⟩
  · exact .inl ⟨field, List.mem_cons_of_mem _ among, marked⟩
  · refine .inr ⟨Nat.succ_le_succ short, ?_⟩
    rintro ⟨other, among, empty⟩
    rcases List.mem_cons.mp among with rfl | among
    · exact absurd empty kept
    · exact Nat.succ_lt_succ (shorter ⟨other, among, empty⟩)

theorem readsShort (attributes : List Attribute) : ReadsShort attributes := by
  induction attributes using List.twoStepInduction with
  | nil => exact .inr ⟨Nat.le_refl 0, fun ⟨_, among, _⟩ => absurd among List.not_mem_nil⟩
  | singleton attr =>
    by_cases lost : attr.form = .plain []
    · rw [ReadsShort, render_cons, readAttributes_lost attr lost]
      exact .inr ⟨Nat.zero_le 1, fun _ => Nat.zero_lt_one⟩
    · apply ReadsShort.cons _ lost
      exact .inr ⟨Nat.le_refl 0, fun ⟨_, among, _⟩ => absurd among List.not_mem_nil⟩
  | cons_cons attr next more ih ih_next =>
    by_cases lost : attr.form = .plain []
    · rw [ReadsShort, render_cons, readAttributes_lost attr lost, tail,
        if_neg (List.cons_ne_nil _ _), render_cons]
      -- it swallows the next one, up to a quotation mark in it
      by_cases quoted : ∃ value, next.form = .quoted value
      · obtain ⟨value, quoted⟩ := quoted
        exact .inl (readAttributes_breaks attr.name next quoted (separated_tail more))
      · rw [readAttributes_swallows attr.name next (not_exists.mp quoted) (separated_tail more),
          readAttributes_tail]
        rcases ih with ⟨field, among, marked⟩ | ⟨short, -⟩
        · exact .inl ⟨field, List.mem_cons_of_mem _ among, marked⟩
        · simp only [List.length_cons]
          exact .inr ⟨by omega, fun _ => by omega⟩
    · exact (ih_next next).cons lost

/-- The attributes are parsed as they were rendered if none has an empty value without quotes. -/
theorem parse_render_iff (attributes : List Attribute) :
    (∃ parsed, parse (render attributes) = .ok parsed ∧
        parsed.Perm (attributes.map Attribute.field)) ↔
      ∀ attr ∈ attributes, attr.form ≠ .plain [] := by
  rw [parse_eq]
  constructor
  · rintro ⟨parsed, returned, same⟩ attr member lost
    rw [Except.ok.injEq] at returned
    rw [← returned] at same
    rcases readsShort attributes with ⟨field, among, marked⟩ | ⟨-, short⟩
    · obtain ⟨source, -, rfl⟩ := List.mem_map.mp (same.mem_iff.mp among)
      exact source.named.2.2.2.2 marked
    · -- two attributes have become one
      have fewer := short ⟨attr, member, lost⟩
      rw [same.length_eq, List.length_map] at fewer
      exact Nat.lt_irrefl _ fewer
  · intro kept
    exact ⟨_, rfl, .of_eq (readAttributes_render kept)⟩

theorem deleted_cookie_swallows :
    let attributes : List Attribute :=
      [⟨ascii "SID", .plain [], by decide⟩, ⟨ascii "HttpOnly", .bare, by decide⟩]
    ¬ ∃ parsed, parse (render attributes) = .ok parsed ∧
      parsed.Perm (attributes.map Attribute.field) := by
  rintro attributes ⟨parsed, returned, same⟩
  have taken : parse (render attributes) = .ok [(ascii "SID", ascii "; HttpOnly")] := by decide
  rw [taken, Except.ok.injEq] at returned
  rw [← returned] at same
  revert same
  decide

end ServerLib.Web.AttributeList
