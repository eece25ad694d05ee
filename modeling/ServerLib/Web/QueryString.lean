import ServerLib.Foundation.Cut
import ServerLib.Web.HttpMessage
import ServerLib.Web.WebPercent

/-!
# `query_string`

`parse` goes once through the string and keeps three positions. It cuts a piece between two `&` at
the last `=` in it, where a list of attributes is cut at the first one, so that what it reads is
what the two-level split gives exactly if no piece has a second `=`. What `create` writes has
none.
-/
namespace ServerLib.Web.QueryString

open Network (Bytes)

/-- Fields are written in the order in which the multimap is iterated. -/
def createFrom (first : Bool) : Header → Bytes
  | [] => []
  | field :: fields =>
    (if !first then [38] else []) ++ field.1 ++ [61] ++ WebPercent.encode field.2 ++
      createFrom false fields

def create (fields : Header) : Bytes := createFrom true fields

/-- The positions of the loop of `parse`, where `none` is `npos`, and the fields emplaced. -/
structure QueryScan where
  namePos : Nat
  nameEndPos : Option Nat
  valuePos : Option Nat
  result : Header

/-- A field with an empty name is dropped, and its value is not looked at. -/
def emplace (result : Header) (name : Bytes) (value : Except Failure Bytes) :
    Except Failure Header :=
  if name ≠ [] then do
    let value ← value
    pure (result ++ [(name, WebPercent.decode value)])
  else pure result

def queryTurn (queryString : Bytes) (c : Nat) (chr : UInt8) (scan : QueryScan) :
    Except Failure QueryScan :=
  if chr = 38 then do
    let name ← substr queryString scan.namePos (sizeSub (scan.nameEndPos.getD c) scan.namePos)
    let result ← emplace scan.result name <|
      match scan.valuePos with
      | none => pure []
      | some pos => substr queryString pos (sizeSub c pos)
    pure ⟨c + 1, none, none, result⟩
  else if chr = 61 then pure { scan with nameEndPos := some c, valuePos := some (c + 1) }
  else pure scan

def scanQuery (queryString : Bytes) : Nat → Bytes → QueryScan → Except Failure QueryScan
  | _, [], scan => pure scan
  | c, chr :: rest, scan => do
    let scan ← queryTurn queryString c chr scan
    scanQuery queryString (c + 1) rest scan

/-- What follows the loop. A count from `npos` takes the rest of the string. -/
def lastField (queryString : Bytes) (scan : QueryScan) : Except Failure Header :=
  if scan.namePos < queryString.length then do
    let name ←
      match scan.nameEndPos with
      | none => substr queryString scan.namePos queryString.length
      | some pos => substr queryString scan.namePos (sizeSub pos scan.namePos)
    emplace scan.result name <|
      match scan.valuePos with
      | none => pure []
      | some pos =>
        if pos ≥ queryString.length then pure [] else substr queryString pos queryString.length
  else pure scan.result

def parse (queryString : Bytes) : Except Failure Header :=
  if queryString = [] then pure []
  else do
    let scan ← scanQuery queryString 0 queryString ⟨0, none, none, []⟩
    lastField queryString scan

/-! ### Two levels -/

/-- The field in a piece, which has no value if it is not cut. -/
def fieldOf (cut : Bytes → Option (Bytes × Bytes)) (piece : Bytes) : Option (Bytes × Bytes) :=
  let (name, value) := (cut piece).getD (piece, [])
  if name = [] then none else some (name, WebPercent.decode value)

/-- The fields of the pieces between the `&`, each cut at its first `=`. -/
def splitFields (queryString : Bytes) : Header :=
  (queryString.splitOn 38).filterMap (fieldOf (Cut.first 61))

/-! ### The scan of a piece -/

/-- In a piece only the positions of its last `=` move. -/
theorem scanQuery_piece (s : Bytes) {piece : Bytes} (whole : 38 ∉ piece) (c : Nat) (rest : Bytes)
    (scan : QueryScan) :
    scanQuery s c (piece ++ rest) scan = scanQuery s (c + piece.length) rest
      { scan with
        nameEndPos := (Cut.lastAt 61 c piece).or scan.nameEndPos
        valuePos := ((Cut.lastAt 61 c piece).map (· + 1)).or scan.valuePos } := by
  induction piece generalizing c scan with
  | nil => rfl
  | cons chr piece ih =>
    rw [List.mem_cons, not_or] at whole
    have behind : c + (chr :: piece).length = c + 1 + piece.length := by
      rw [List.length_cons]
      omega
    rw [List.cons_append, scanQuery, queryTurn, if_neg (Ne.symm whole.1), Cut.lastAt_cons, behind]
    split
    -- this `=` counts unless another one follows
    next equals =>
      change scanQuery s (c + 1) (piece ++ rest) _ = _
      rw [ih whole.2]
      cases Cut.lastAt 61 (c + 1) piece <;> rfl
    next other =>
      change scanQuery s (c + 1) (piece ++ rest) _ = _
      rw [ih whole.2]
      cases Cut.lastAt 61 (c + 1) piece <;> rfl

theorem emplace_ok (result : Header) (name value : Bytes) :
    emplace result name (.ok value) = .ok
      (result ++ (if name = [] then none else some (name, WebPercent.decode value)).toList) := by
  rw [emplace]
  by_cases empty : name = []
  · simp [empty, pure, Except.pure]
  · simp [empty, bind, Except.bind, pure, Except.pure]

theorem fieldOf_uncut {cut : Bytes → Option (Bytes × Bytes)} {piece : Bytes}
    (uncut : cut piece = none) :
    fieldOf cut piece = if piece = [] then none else some (piece, WebPercent.decode []) := by
  rw [fieldOf, uncut]
  rfl

theorem fieldOf_cut {cut : Bytes → Option (Bytes × Bytes)} {piece name value : Bytes}
    (parts : cut piece = some (name, value)) :
    fieldOf cut piece = if name = [] then none else some (name, WebPercent.decode value) := by
  rw [fieldOf, parts]
  rfl

/-- The scan has come to the end of a piece that begins at `namePos`. -/
def atEndOf (piece : Bytes) (namePos : Nat) (result : Header) : QueryScan :=
  ⟨namePos, Cut.lastAt 61 namePos piece, (Cut.lastAt 61 namePos piece).map (· + 1), result⟩

/-- A `&` ends the piece, and its field is emplaced. -/
theorem queryTurn_ampersand (front piece back : Bytes) (result : Header) :
    queryTurn (front ++ (piece ++ 38 :: back)) (front.length + piece.length) 38
        (atEndOf piece front.length result) =
      .ok ⟨front.length + piece.length + 1, none, none,
        result ++ (fieldOf (Cut.last 61) piece).toList⟩ := by
  rw [queryTurn, if_pos rfl, atEndOf, Cut.lastAt]
  cases cut : Cut.last 61 piece with
  | none =>
    -- without a `=` the name goes up to the `&`
    have named : substr (front ++ (piece ++ 38 :: back)) front.length
        (sizeSub (front.length + piece.length) front.length) = .ok piece := by
      rw [sizeSub_of_le (Nat.le_add_right _ _), Nat.add_sub_cancel_left]
      exact substr_middle front piece _
    rw [fieldOf_uncut cut, Option.map_none, Option.getD_none, named]
    change (emplace result piece (.ok []) >>= fun taken => _) = _
    rw [emplace_ok]
    rfl
  | some parts =>
    obtain ⟨name, value⟩ := parts
    obtain ⟨rfl, -⟩ := Cut.last_eq_some_iff.mp cut
    have named : substr (front ++ ((name ++ 61 :: value) ++ 38 :: back)) front.length
        (sizeSub (front.length + name.length) front.length) = .ok name := by
      rw [sizeSub_of_le (Nat.le_add_right _ _), Nat.add_sub_cancel_left, List.append_assoc]
      exact substr_middle front name _
    -- the value stands between the `=` and the `&`
    have valued : substr (front ++ ((name ++ 61 :: value) ++ 38 :: back))
        (front.length + name.length + 1)
        (sizeSub (front.length + (name ++ 61 :: value).length) (front.length + name.length + 1)) =
          .ok value := by
      have parted := substr_middle (front ++ name ++ [61]) value (38 :: back)
      convert parted using 2
      · simp
      · simp; omega
      · rw [List.length_append, List.length_cons, sizeSub_of_le (by omega)]
        omega
    rw [fieldOf_cut cut, Option.map_some, Option.getD_some, named]
    change (emplace result name (substr _ _ _) >>= fun taken => _) = _
    rw [valued, emplace_ok]
    rfl

/-- The code behind the loop emplaces the field of the last piece. -/
theorem lastField_piece (front piece : Bytes) (result : Header) :
    lastField (front ++ piece) (atEndOf piece front.length result) =
      .ok (result ++ (fieldOf (Cut.last 61) piece).toList) := by
  rw [lastField, atEndOf, Cut.lastAt]
  -- an empty piece at the end is not looked at
  split
  next inside =>
    cases cut : Cut.last 61 piece with
    | none =>
      have named : substr (front ++ piece) front.length (front ++ piece).length = .ok piece :=
        substr_rest front (by simp)
      rw [fieldOf_uncut cut, Option.map_none]
      change (substr _ front.length _ >>= fun name => emplace result name (.ok [])) = _
      rw [named]
      exact emplace_ok result piece []
    | some parts =>
      obtain ⟨name, value⟩ := parts
      obtain ⟨rfl, -⟩ := Cut.last_eq_some_iff.mp cut
      have named : substr (front ++ (name ++ 61 :: value)) front.length
          (sizeSub (front.length + name.length) front.length) = .ok name := by
        rw [sizeSub_of_le (Nat.le_add_right _ _), Nat.add_sub_cancel_left]
        exact substr_middle front name _
      -- behind the last character `substr` would throw, so that the code asks first
      have valued : (if front.length + name.length + 1 ≥ (front ++ (name ++ 61 :: value)).length
          then .ok [] else substr (front ++ (name ++ 61 :: value))
            (front.length + name.length + 1) (front ++ (name ++ 61 :: value)).length) =
          Except.ok value := by
        split
        next past =>
          have none_left : value.length = 0 := by
            simp only [List.length_append, List.length_cons, ge_iff_le] at past
            omega
          rw [List.length_eq_zero_iff.mp none_left]
        next =>
          have rest : substr (front ++ name ++ [61] ++ value) (front ++ name ++ [61]).length
              (front ++ (name ++ 61 :: value)).length = .ok value :=
            substr_rest (front ++ name ++ [61]) (by simp; omega)
          convert rest using 2
          · simp
          · simp [Nat.add_assoc]
      rw [fieldOf_cut cut, Option.map_some]
      dsimp only [Option.map_some]
      rw [named, ← emplace_ok, ← valued]
      rfl
  next past =>
    -- the piece is empty
    have none_left : piece.length = 0 := by
      simp only [List.length_append] at past
      omega
    rw [List.length_eq_zero_iff.mp none_left]
    simp [fieldOf, Cut.last, pure, Except.pure]

/-! ### The whole string -/

theorem scanQuery_fields (front rest : Bytes) (result : Header) :
    (scanQuery (front ++ rest) front.length rest ⟨front.length, none, none, result⟩ >>=
        lastField (front ++ rest)) =
      .ok (result ++ (rest.splitOn 38).filterMap (fieldOf (Cut.last 61))) := by
  -- A piece that a `&` ends leaves the scan at the beginning of the next one.
  induction length : rest.length using Nat.strong_induction_on generalizing front rest result with
  | _ n ih =>
    cases cut : Cut.first 38 rest with
    | none =>
      have whole := Cut.first_eq_none_iff.mp cut
      have scanned := scanQuery_piece (front ++ rest) whole front.length []
        ⟨front.length, none, none, result⟩
      rw [List.append_nil, Option.or_none, Option.or_none] at scanned
      rw [scanned, List.splitOn_eq_singleton whole]
      refine (lastField_piece front rest result).trans ?_
      rw [List.filterMap_cons, List.filterMap_nil]
      cases fieldOf (Cut.last 61) rest <;> rfl
    | some parts =>
      obtain ⟨piece, back⟩ := parts
      obtain ⟨rfl, whole⟩ := Cut.first_eq_some_iff.mp cut
      have scanned := scanQuery_piece (front ++ (piece ++ 38 :: back)) whole front.length
        (38 :: back) ⟨front.length, none, none, result⟩
      rw [Option.or_none, Option.or_none] at scanned
      have next := ih back.length (by simp at length; omega) (front ++ piece ++ [38]) back
        (result ++ (fieldOf (Cut.last 61) piece).toList) rfl
      have same : front ++ piece ++ [38] ++ back = front ++ (piece ++ 38 :: back) := by simp
      have place : (front ++ piece ++ [38]).length = front.length + piece.length + 1 := by
        simp [Nat.add_assoc]
      rw [same, place] at next
      have turn := queryTurn_ampersand front piece back result
      rw [atEndOf] at turn
      rw [scanned, scanQuery, turn]
      refine next.trans ?_
      rw [List.splitOn_append_cons_self_of_not_mem whole, List.filterMap_cons]
      cases fieldOf (Cut.last 61) piece <;> simp

/-- What is parsed, in the order in which it is emplaced: no position is out of range. -/
theorem parse_eq (queryString : Bytes) :
    parse queryString = .ok ((queryString.splitOn 38).filterMap (fieldOf (Cut.last 61))) := by
  rw [parse]
  split
  next empty =>
    rw [empty]
    rfl
  next => exact scanQuery_fields [] queryString []

/-- The names that the two-level split finds have no `=`. -/
theorem notMem_of_fieldOf_first {piece : Bytes} {field : Bytes × Bytes}
    (found : fieldOf (Cut.first 61) piece = some field) : 61 ∉ field.1 := by
  cases cut : Cut.first 61 piece with
  | none =>
    rw [fieldOf_uncut cut, Option.ite_none_left_eq_some, Option.some.injEq] at found
    obtain ⟨-, rfl⟩ := found
    exact Cut.first_eq_none_iff.mp cut
  | some parts =>
    rw [fieldOf_cut cut, Option.ite_none_left_eq_some, Option.some.injEq] at found
    obtain ⟨-, rfl⟩ := found
    exact (Cut.first_eq_some_iff.mp cut).2

/-- The loop cuts a piece at its last `=`, so that a second one ends up in the name. -/
theorem parse_splits_iff (queryString : Bytes) :
    (∃ parsed, parse queryString = .ok parsed ∧ parsed.Perm (splitFields queryString)) ↔
      ∀ piece ∈ queryString.splitOn 38, piece.count 61 ≤ 1 := by
  constructor
  · rintro ⟨parsed, returned, same⟩ piece member
    by_contra more
    obtain ⟨name, value, cut, inside⟩ := Cut.mem_of_last (Nat.lt_of_not_le more)
    rw [parse_eq, Except.ok.injEq] at returned
    -- a name with a `=` in it is parsed, and no piece has it in front of its first `=`
    have taken : (name, WebPercent.decode value) ∈ parsed := by
      rw [← returned, List.mem_filterMap]
      exact ⟨piece, member, by rw [fieldOf_cut cut, if_neg (List.ne_nil_of_mem inside)]⟩
    obtain ⟨other, -, found⟩ := List.mem_filterMap.mp (same.mem_iff.mp taken)
    exact notMem_of_fieldOf_first found inside
  · intro once
    refine ⟨_, parse_eq queryString, ?_⟩
    -- the first `=` is the last one
    have agree : ∀ piece ∈ queryString.splitOn 38,
        fieldOf (Cut.last 61) piece = fieldOf (Cut.first 61) piece := by
      intro piece member
      rw [fieldOf, fieldOf, Cut.first_eq_last_of_count (once piece member)]
    rw [splitFields, List.filterMap_congr agree]

theorem unescaped_value_in_name :
    ¬ ∃ parsed, parse (ascii "key=YQ==") = .ok parsed ∧
      parsed.Perm (splitFields (ascii "key=YQ==")) := by
  rintro ⟨parsed, returned, same⟩
  have taken : parse (ascii "key=YQ==") = .ok [(ascii "key=YQ=", [])] := by decide
  have wanted : splitFields (ascii "key=YQ==") = [(ascii "key", ascii "YQ==")] := by decide
  rw [taken, Except.ok.injEq] at returned
  rw [← returned, wanted] at same
  revert same
  decide

/-! ### What `create` writes -/

def written (field : Bytes × Bytes) : Bytes := field.1 ++ 61 :: WebPercent.encode field.2

/-- Names that `create` writes as they are can be read back. -/
def Nameable (name : Bytes) : Prop := name ≠ [] ∧ 38 ∉ name ∧ 61 ∉ name

theorem createFrom_eq (first : Bool) (field : Bytes × Bytes) (fields : Header) :
    createFrom first (field :: fields) =
      (if !first then [38] else []) ++ [38].intercalate ((field :: fields).map written) := by
  induction fields generalizing first field with
  | nil => simp [createFrom, written]
  | cons next fields ih =>
    rw [createFrom, ih]
    simp [written]

theorem fieldOf_written {field : Bytes × Bytes} (named : Nameable field.1) :
    fieldOf (Cut.last 61) (written field) = some field := by
  obtain ⟨name, value⟩ := field
  have apart : 61 ∉ WebPercent.encode value := WebPercent.notMem_encode value (by decide)
  rw [written, fieldOf_cut (Cut.last_append_cons name apart), if_neg named.1,
    WebPercent.decode_encode]

theorem whole_written {field : Bytes × Bytes} (named : Nameable field.1) : 38 ∉ written field := by
  have apart : 38 ∉ WebPercent.encode field.2 := WebPercent.notMem_encode _ (by decide)
  simp [written, named.2.1, apart]

/-- Any number of fields, also of one name, is read as it was written. -/
theorem query_round_trip :
    (∀ fields : Header, (∀ field ∈ fields, Nameable field.1) →
      ∃ parsed, parse (create fields) = .ok parsed ∧ parsed.Perm fields) ∧
    ∀ value, WebPercent.decode (WebPercent.encode value) = value := by
  refine ⟨fun fields named => ⟨_, parse_eq _, ?_⟩, WebPercent.decode_encode⟩
  cases fields with
  | nil => decide
  | cons field fields =>
    -- what is written for a field has no `&` in it
    have whole : ∀ piece ∈ (field :: fields).map written, 38 ∉ piece := by
      intro piece member
      obtain ⟨source, among, rfl⟩ := List.mem_map.mp member
      exact whole_written (named source among)
    rw [create, createFrom_eq]
    change (List.filterMap _ (([38].intercalate ((field :: fields).map written)).splitOn 38)).Perm _
    have read : ∀ source ∈ field :: fields,
        (fieldOf (Cut.last 61) ∘ written) source = some source :=
      fun source among => fieldOf_written (named source among)
    rw [List.splitOn_intercalate 38 whole (List.cons_ne_nil _ _), List.filterMap_map,
      List.filterMap_congr read, List.filterMap_some]

theorem query_round_trip_repeated :
    create [(ascii "k", [43, 0, 255]), (ascii "K", []), (ascii "k", ascii "a=b&%4")] =
      ascii "k=%2B%00%FF&K=&k=a%3Db%26%254" ∧
    ∃ parsed, parse (create
        [(ascii "k", [43, 0, 255]), (ascii "K", []), (ascii "k", ascii "a=b&%4")]) = .ok parsed ∧
      parsed.Perm [(ascii "k", [43, 0, 255]), (ascii "K", []), (ascii "k", ascii "a=b&%4")] :=
  ⟨by decide, query_round_trip.1 _ (by unfold Nameable; decide)⟩

end ServerLib.Web.QueryString
