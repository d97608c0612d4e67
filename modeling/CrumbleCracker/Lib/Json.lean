import CrumbleCracker.Lib.Bytes

/-!
# JSON text

Values, the compact text `encoding/json` writes for them, and a reader for that text. Byte strings are base64, as
there; no other string holds a quote or a backslash, so none needs an escape (`Value.Plain`).

* `parse_render`: reading the text of a plain value gives the value back.
* `base64Decode_encode`: base64 reads back.
* `lookup_present`: the fields of an object that were not omitted are found under their keys.
* `Shape α`: how values of `α` are written and read back; `Member α`: the same for a field of an object that may be
  omitted.
-/

variable {n : Nat}

namespace CrumbleCracker.JsonText

open List

variable {rest : Bytes}

def ascii (s : String) : Bytes := s.toList.map fun c => UInt8.ofNat c.toNat

inductive Value
  | null
  | bool (b : Bool)
  | num (n : Int)
  | str (s : Bytes)
  | arr (vs : List Value)
  | obj (fs : List (Bytes × Value))

/-! ## Decimal numbers -/

/-- The decimal digits of `n`, the highest first. -/
def decimal (n : Nat) : List Nat := if n = 0 then [0] else (Nat.digits 10 n).reverse

theorem decimal_lt (n d : Nat) (h : d ∈ decimal n) : d < 10 := by
  unfold decimal at h
  split at h
  · rw [mem_singleton.mp h]; decide
  · exact Nat.digits_lt_base (by decide) (mem_reverse.mp h)

theorem ofDigits_decimal (n : Nat) : Nat.ofDigits 10 (decimal n).reverse = n := by
  unfold decimal
  split
  · simp_all
  · rw [reverse_reverse, Nat.ofDigits_digits]

theorem decimal_ne_nil (n : Nat) : decimal n ≠ [] := by
  unfold decimal
  split
  · simp
  · simpa using Nat.digits_ne_nil_iff_ne_zero.mpr ‹_›

def isDigit (b : UInt8) : Bool := 48 ≤ b && b ≤ 57

def renderNat (n : Nat) : Bytes := (decimal n).map fun d => UInt8.ofNat (48 + d)

def parseNat (bs : Bytes) : Option (Nat × Bytes) :=
  let ds := bs.takeWhile isDigit
  if ds.isEmpty then none
  else some (Nat.ofDigits 10 (ds.map fun b => b.toNat - 48).reverse, bs.dropWhile isDigit)

def renderInt : Int → Bytes
  | .ofNat n => renderNat n
  | .negSucc n => 45 :: renderNat (n + 1)

def parseInt : Bytes → Option (Int × Bytes)
  | 45 :: bs => (parseNat bs).map fun r => (-(r.1 : Int), r.2)
  | bs => (parseNat bs).map fun r => ((r.1 : Int), r.2)

/-- What may follow a number: nothing that would continue it. -/
def Stops (rest : Bytes) : Prop := ∀ b ∈ rest.head?, isDigit b = false

theorem digit_spec {d : Nat} (h : d < 10) :
    isDigit (UInt8.ofNat (48 + d)) = true ∧ (UInt8.ofNat (48 + d)).toNat - 48 = d := by
  have hnat : (UInt8.ofNat (48 + d)).toNat = 48 + d := by
    rw [UInt8.toNat_ofNat']; omega
  refine ⟨?_, by omega⟩
  simp only [isDigit, Bool.and_eq_true, decide_eq_true_eq, UInt8.le_iff_toNat_le, hnat]
  exact ⟨by decide +revert, by simp; omega⟩

theorem takeWhile_append_stop {p : UInt8 → Bool} {a : Bytes} (ha : ∀ b ∈ a, p b = true)
    (hrest : ∀ b ∈ rest.head?, p b = false) : (a ++ rest).takeWhile p = a ∧ (a ++ rest).dropWhile p = rest := by
  induction a with
  | nil =>
    cases rest with
    | nil => exact ⟨rfl, rfl⟩
    | cons b rest => simp [hrest b (by simp)]
  | cons b a ih =>
    obtain ⟨h1, h2⟩ := ih fun c hc => ha c (mem_cons_of_mem b hc)
    simp [ha b mem_cons_self, h1, h2]

theorem renderNat_ne_nil (n : Nat) : renderNat n ≠ [] := by
  simpa [renderNat] using decimal_ne_nil n

theorem isDigit_of_mem_renderNat {b : UInt8} (h : b ∈ renderNat n) : isDigit b = true := by
  obtain ⟨d, hd, rfl⟩ := mem_map.mp h
  exact (digit_spec (decimal_lt n d hd)).1

theorem parseNat_render (n : Nat) (h : Stops rest) : parseNat (renderNat n ++ rest) = some (n, rest) := by
  obtain ⟨htake, hdrop⟩ := takeWhile_append_stop (fun _ (hb : _ ∈ renderNat n) => isDigit_of_mem_renderNat hb) h
  have hback : (renderNat n).map (fun b => b.toNat - 48) = decimal n := by
    have hdigits : (decimal n).map (fun d => (UInt8.ofNat (48 + d)).toNat - 48) = (decimal n).map id :=
      map_congr_left fun d hd => (digit_spec (decimal_lt n d hd)).2
    rw [renderNat, map_map]
    exact hdigits.trans (map_id _)
  unfold parseNat
  simp only [htake, hdrop, hback, ofDigits_decimal n]
  rw [if_neg (by simpa using renderNat_ne_nil n)]

theorem renderNat_head (n : Nat) (rest : Bytes) : ∃ b bs, renderNat n ++ rest = b :: bs ∧ isDigit b = true := by
  have hne := renderNat_ne_nil n
  cases hr : renderNat n with
  | nil => exact absurd hr hne
  | cons b bs =>
    exact ⟨b, bs ++ rest, rfl, isDigit_of_mem_renderNat (by rw [hr]; exact mem_cons_self)⟩

theorem parseInt_render (n : Int) (h : Stops rest) : parseInt (renderInt n ++ rest) = some (n, rest) := by
  cases n with
  | ofNat n =>
    obtain ⟨b, bs, hb, hdigit⟩ := renderNat_head n rest
    have hne : b ≠ 45 := by rintro rfl; simp [isDigit] at hdigit
    have hparse := parseNat_render n h
    simp only [renderInt]
    rw [hb] at hparse ⊢
    unfold parseInt
    split
    · rename_i heq; exact absurd (List.cons.inj heq).1 hne
    · simp [hparse]
  | negSucc n =>
    simp only [renderInt, cons_append, parseInt, parseNat_render (n + 1) h, Option.map_some]
    rfl

/-! ## Text of a value -/

mutual

def Value.render : Value → Bytes
  | .null => ascii "null"
  | .bool true => ascii "true"
  | .bool false => ascii "false"
  | .num n => renderInt n
  | .str s => 34 :: (s ++ [34])
  | .arr [] => [91, 93]
  | .arr (v :: vs) => 91 :: (v.render ++ renderElems vs)
  | .obj [] => [123, 125]
  | .obj ((k, v) :: fs) => 123 :: 34 :: (k ++ 34 :: 58 :: (v.render ++ renderFields fs))

/-- The elements behind the first one, and the closing bracket. -/
def renderElems : List Value → Bytes
  | [] => [93]
  | v :: vs => 44 :: (v.render ++ renderElems vs)

def renderFields : List (Bytes × Value) → Bytes
  | [] => [125]
  | (k, v) :: fs => 44 :: 34 :: (k ++ 34 :: 58 :: (v.render ++ renderFields fs))

end

def parseString (bs : Bytes) : Option (Bytes × Bytes) :=
  match bs.dropWhile (· ≠ 34) with
  | _ :: rest => some (bs.takeWhile (· ≠ 34), rest)
  | [] => none

def parseKey : Bytes → Option (Bytes × Bytes)
  | 34 :: bs => match parseString bs with
    | some (k, 58 :: rest) => some (k, rest)
    | _ => none
  | _ => none

def parseWord (word : Bytes) (v : Value) (bs : Bytes) : Option (Value × Bytes) :=
  if word.isPrefixOf bs then some (v, bs.drop word.length) else none

mutual

def parseValue : Nat → Bytes → Option (Value × Bytes)
  | 0, _ => none
  | _ + 1, [] => none
  | fuel + 1, b :: rest =>
    if b = 34 then (parseString rest).map fun r => (.str r.1, r.2)
    else if b = 91 then
      if rest.head? = some 93 then some (.arr [], rest.tail)
      else (parseElems fuel rest).map fun r => (.arr r.1, r.2)
    else if b = 123 then
      if rest.head? = some 125 then some (.obj [], rest.tail)
      else (parseFields fuel rest).map fun r => (.obj r.1, r.2)
    else if b = 110 then parseWord (ascii "null") .null (b :: rest)
    else if b = 116 then parseWord (ascii "true") (.bool true) (b :: rest)
    else if b = 102 then parseWord (ascii "false") (.bool false) (b :: rest)
    else (parseInt (b :: rest)).map fun r => (.num r.1, r.2)

def parseElems : Nat → Bytes → Option (List Value × Bytes)
  | 0, _ => none
  | fuel + 1, bs => match parseValue fuel bs with
    | some (v, 93 :: rest) => some ([v], rest)
    | some (v, 44 :: rest) => (parseElems fuel rest).map fun r => (v :: r.1, r.2)
    | _ => none

def parseFields : Nat → Bytes → Option (List (Bytes × Value) × Bytes)
  | 0, _ => none
  | fuel + 1, bs => match parseKey bs with
    | none => none
    | some (k, bs) => match parseValue fuel bs with
      | some (v, 125 :: rest) => some ([(k, v)], rest)
      | some (v, 44 :: rest) => (parseFields fuel rest).map fun r => ((k, v) :: r.1, r.2)
      | _ => none

end

/-- Reads a whole text. Every value has at least one byte, so its length is fuel enough. -/
def parse (bs : Bytes) : Option Value := match parseValue bs.length bs with
  | some (v, []) => some v
  | _ => none

/-- A string the writer need not escape. -/
def PlainString (s : Bytes) : Prop := ∀ b ∈ s, b ≠ 34
deriving Decidable

mutual

/-- Every string and key is plain. -/
def Value.Plain : Value → Prop
  | .str s => PlainString s
  | .arr vs => PlainElems vs
  | .obj fs => PlainFields fs
  | _ => True

def PlainElems : List Value → Prop
  | [] => True
  | v :: vs => v.Plain ∧ PlainElems vs

def PlainFields : List (Bytes × Value) → Prop
  | [] => True
  | (k, v) :: fs => PlainString k ∧ v.Plain ∧ PlainFields fs

end

theorem parseString_render {s : Bytes} (h : PlainString s) (rest : Bytes) :
    parseString (s ++ 34 :: rest) = some (s, rest) := by
  have hp : ∀ b ∈ s, decide (b ≠ 34) = true := fun b hb => decide_eq_true (h b hb)
  obtain ⟨htake, hdrop⟩ := takeWhile_append_stop hp (show ∀ b ∈ (34 :: rest).head?, _ by simp)
  unfold parseString
  rw [htake, hdrop]

theorem parseKey_render {k : Bytes} (h : PlainString k) (rest : Bytes) :
    parseKey (34 :: (k ++ 34 :: 58 :: rest)) = some (k, rest) := by
  simp only [parseKey, parseString_render h]

theorem parseValue_num (fuel : Nat) (n : Int) (h : Stops rest) :
    parseValue (fuel + 1) (renderInt n ++ rest) = some (.num n, rest) := by
  have hparse := parseInt_render n h
  obtain ⟨b, bs, hb, hfirst⟩ : ∃ b bs, renderInt n ++ rest = b :: bs ∧ (isDigit b = true ∨ b = 45) := by
    cases n with
    | ofNat n =>
      obtain ⟨b, bs, hb, hdigit⟩ := renderNat_head n rest
      exact ⟨b, bs, hb, .inl hdigit⟩
    | negSucc n => exact ⟨45, renderNat (n + 1) ++ rest, rfl, .inr rfl⟩
  rw [hb] at hparse ⊢
  have hnot : ∀ c : UInt8, c ∈ [34, 91, 123, 110, 116, 102] → b ≠ c := by
    rintro c hc rfl
    revert hfirst
    fin_cases hc <;> decide
  rw [parseValue, if_neg (hnot _ (by simp)), if_neg (hnot _ (by simp)), if_neg (hnot _ (by simp)),
    if_neg (hnot _ (by simp)), if_neg (hnot _ (by simp)), if_neg (hnot _ (by simp)), hparse]
  rfl

theorem render_head (v : Value) : ∃ b bs, v.render = b :: bs ∧ b ≠ 93 := by
  cases v with
  | null => exact ⟨110, _, rfl, by decide⟩
  | bool b => cases b <;> exact ⟨_, _, rfl, by decide⟩
  | num n =>
    cases n with
    | ofNat n =>
      obtain ⟨b, bs, hb, hdigit⟩ := renderNat_head n []
      refine ⟨b, bs, by simpa [Value.render, renderInt] using hb, ?_⟩
      rintro rfl
      simp [isDigit] at hdigit
    | negSucc n => exact ⟨45, renderNat (n + 1), rfl, by decide⟩
  | str s => exact ⟨34, _, by rw [Value.render], by decide⟩
  | arr vs => cases vs <;> exact ⟨91, _, by rw [Value.render], by decide⟩
  | obj fs =>
    rcases fs with _ | ⟨⟨k, v⟩, fs⟩
    · exact ⟨123, _, by rw [Value.render], by decide⟩
    · exact ⟨123, _, by rw [Value.render], by decide⟩

theorem stops_renderElems (vs : List Value) (rest : Bytes) : Stops (renderElems vs ++ rest) := by
  intro b hb
  cases vs <;> simp [renderElems] at hb <;> subst hb <;> decide

theorem stops_renderFields (fs : List (Bytes × Value)) (rest : Bytes) : Stops (renderFields fs ++ rest) := by
  intro b hb
  rcases fs with _ | ⟨⟨k, v⟩, fs⟩ <;> simp [renderFields] at hb <;> subst hb <;> decide

theorem renderElems_pos (vs : List Value) : 0 < (renderElems vs).length := by
  cases vs <;> simp [renderElems]

theorem renderFields_pos (fs : List (Bytes × Value)) : 0 < (renderFields fs).length := by
  rcases fs with _ | ⟨⟨k, v⟩, fs⟩ <;> simp [renderFields]

/-- Fuel that covers the text is enough, for a value, for the elements of an array and for the fields of an object. -/
theorem parse_text (fuel : Nat) :
    (∀ v rest, v.Plain → v.render.length ≤ fuel → Stops rest → parseValue fuel (v.render ++ rest) = some (v, rest)) ∧
    (∀ v vs rest, v.Plain → PlainElems vs → (v.render ++ renderElems vs).length ≤ fuel →
      parseElems fuel (v.render ++ (renderElems vs ++ rest)) = some (v :: vs, rest)) ∧
    (∀ k v fs rest, PlainString k → v.Plain → PlainFields fs → (v.render ++ renderFields fs).length ≤ fuel →
      parseFields fuel (34 :: (k ++ 34 :: 58 :: (v.render ++ (renderFields fs ++ rest)))) =
        some ((k, v) :: fs, rest)) := by
  induction fuel with
  | zero =>
    refine ⟨fun v _ _ h => ?_, fun v vs _ _ _ h => ?_, fun k v fs _ _ _ _ h => ?_⟩
    all_goals
      obtain ⟨b, bs, hb, -⟩ := render_head v
      simp [hb] at h
  | succ fuel ih =>
    obtain ⟨ihv, ihe, ihf⟩ := ih
    refine ⟨fun v rest hp hlen hstop => ?_, fun v vs rest hv hvs hlen => ?_, fun k v fs rest hk hv hfs hlen => ?_⟩
    · cases v with
      | null => rfl
      | bool b => cases b <;> rfl
      | num n => rw [Value.render]; exact parseValue_num fuel n hstop
      | str s =>
        rw [Value.render, cons_append, append_assoc, parseValue, if_pos rfl]
        simp only [cons_append, nil_append, parseString_render hp, Option.map_some]
      | arr vs =>
        cases vs with
        | nil => rw [Value.render]; rfl
        | cons v vs =>
          obtain ⟨b, bs, hb, hne⟩ := render_head v
          rw [Value.render] at hlen ⊢
          have hrest := ihe v vs rest hp.1 hp.2 (by simpa using hlen)
          have hfirst : (v.render ++ (renderElems vs ++ rest)).head? ≠ some 93 := by simpa [hb] using hne
          rw [cons_append, append_assoc, parseValue, if_neg (by decide), if_pos rfl, if_neg hfirst, hrest]
          rfl
      | obj fs =>
        rcases fs with _ | ⟨⟨k, v⟩, fs⟩
        · rw [Value.render]; rfl
        · rw [Value.render] at hlen ⊢
          obtain ⟨hk, hv, hfs⟩ := hp
          have hrest := ihf k v fs rest hk hv hfs (by simp at hlen ⊢; omega)
          simp only [cons_append, append_assoc]
          rw [parseValue, if_neg (by decide), if_neg (by decide), if_pos rfl, if_neg (by simp), hrest]
          rfl
    · have hpos := renderElems_pos vs
      rw [length_append] at hlen
      unfold parseElems
      rw [ihv v _ hv (by omega) (stops_renderElems vs rest)]
      cases vs with
      | nil => rw [renderElems]; rfl
      | cons w ws =>
        rw [renderElems] at hlen ⊢
        rw [cons_append, append_assoc]
        simp only [ihe w ws rest hvs.1 hvs.2 (by simp at hlen ⊢; omega), Option.map_some]
    · have hpos := renderFields_pos fs
      rw [length_append] at hlen
      unfold parseFields
      rw [parseKey_render hk]
      simp only [ihv v _ hv (by omega) (stops_renderFields fs rest)]
      rcases fs with _ | ⟨⟨k', w⟩, fs⟩
      · rw [renderFields]; rfl
      · rw [renderFields] at hlen ⊢
        obtain ⟨hk', hw, hfs⟩ := hfs
        simp only [cons_append, append_assoc,
          ihf k' w fs rest hk' hw hfs (by simp at hlen ⊢; omega), Option.map_some]

/-- **Reading the text of a plain value gives the value back.** -/
theorem parse_render {v : Value} (h : v.Plain) : parse v.render = some v := by
  have hv := (parse_text v.render.length).1 v [] h le_rfl (by intro b hb; simp at hb)
  rw [append_nil] at hv
  unfold parse
  rw [hv]

/-! ## Base64 -/

/-- The digit of a six-bit group in the standard alphabet. -/
def sextet (n : Nat) : UInt8 :=
  UInt8.ofNat (if n < 26 then n + 65 else if n < 52 then n + 71 else if n < 62 then n - 4
    else if n = 62 then 43 else 47)

def ofSextet (b : UInt8) : Nat :=
  let n := b.toNat
  if n = 43 then 62 else if n = 47 then 63 else if n < 58 then n + 4 else if n < 91 then n - 65 else n - 71

theorem ofSextet_sextet (h : n < 64) : ofSextet (sextet n) = n := by
  have hall : ∀ i : Fin 64, ofSextet (sextet i) = i := by decide
  exact hall ⟨n, h⟩

theorem sextet_ne (h : n < 64) : sextet n ≠ 61 ∧ sextet n ≠ 34 := by
  have hall : ∀ i : Fin 64, sextet i ≠ 61 ∧ sextet i ≠ 34 := by decide
  exact hall ⟨n, h⟩

def sextets (n : Nat) : Bytes := [sextet (n / 262144), sextet (n / 4096 % 64), sextet (n / 64 % 64), sextet (n % 64)]

def base64Encode : Bytes → Bytes
  | [] => []
  | [a] => (sextets (a.toNat * 65536)).take 2 ++ [61, 61]
  | [a, b] => (sextets (a.toNat * 65536 + b.toNat * 256)).take 3 ++ [61]
  | a :: b :: c :: rest => sextets (a.toNat * 65536 + b.toNat * 256 + c.toNat) ++ base64Encode rest

def base64Decode : Bytes → Option Bytes
  | [] => some []
  | w :: x :: y :: z :: rest =>
    let n := ofSextet w * 262144 + ofSextet x * 4096 + ofSextet y * 64 + ofSextet z
    if z = 61 then
      if y = 61 then some [UInt8.ofNat (ofSextet w * 4 + ofSextet x / 16)]
      else some [UInt8.ofNat (ofSextet w * 4 + ofSextet x / 16), UInt8.ofNat (ofSextet x % 16 * 16 + ofSextet y / 4)]
    else (base64Decode rest).map fun bs =>
      UInt8.ofNat (n / 65536) :: UInt8.ofNat (n / 256 % 256) :: UInt8.ofNat (n % 256) :: bs
  | _ => none

theorem ofNat_eq_of_toNat {a : UInt8} (h : n = a.toNat) : UInt8.ofNat n = a := by
  rw [h]
  exact UInt8.ofNat_toNat

theorem base64Decode_encode (bs : Bytes) : base64Decode (base64Encode bs) = some bs := by
  induction bs using base64Encode.induct with
  | case1 => rfl
  | case2 a =>
    have ha := a.toNat_lt
    have hw : a.toNat * 65536 / 262144 < 64 := by omega
    have hx : a.toNat * 65536 / 4096 % 64 < 64 := by omega
    simp only [base64Encode, sextets, List.take, cons_append, nil_append, base64Decode, if_true,
      ofSextet_sextet hw, ofSextet_sextet hx]
    rw [ofNat_eq_of_toNat (show _ = a.toNat by omega)]
  | case3 a b =>
    have ha := a.toNat_lt
    have hb := b.toNat_lt
    have hw : (a.toNat * 65536 + b.toNat * 256) / 262144 < 64 := by omega
    have hx : (a.toNat * 65536 + b.toNat * 256) / 4096 % 64 < 64 := by omega
    have hy : (a.toNat * 65536 + b.toNat * 256) / 64 % 64 < 64 := by omega
    simp only [base64Encode, sextets, List.take, cons_append, nil_append, base64Decode, if_true,
      if_neg (sextet_ne hy).1, ofSextet_sextet hw, ofSextet_sextet hx, ofSextet_sextet hy]
    rw [ofNat_eq_of_toNat (show _ = a.toNat by omega), ofNat_eq_of_toNat (show _ = b.toNat by omega)]
  | case4 a b c rest ih =>
    have ha := a.toNat_lt
    have hb := b.toNat_lt
    have hc := c.toNat_lt
    have hw : (a.toNat * 65536 + b.toNat * 256 + c.toNat) / 262144 < 64 := by omega
    have hx : (a.toNat * 65536 + b.toNat * 256 + c.toNat) / 4096 % 64 < 64 := by omega
    have hy : (a.toNat * 65536 + b.toNat * 256 + c.toNat) / 64 % 64 < 64 := by omega
    have hz : (a.toNat * 65536 + b.toNat * 256 + c.toNat) % 64 < 64 := by omega
    simp only [base64Encode, sextets, cons_append, nil_append, base64Decode, if_neg (sextet_ne hz).1, ih,
      ofSextet_sextet hw, ofSextet_sextet hx, ofSextet_sextet hy, ofSextet_sextet hz, Option.map_some]
    rw [ofNat_eq_of_toNat (show _ = a.toNat by omega), ofNat_eq_of_toNat (show _ = b.toNat by omega),
      ofNat_eq_of_toNat (show _ = c.toNat by omega)]

theorem plainString_sextets (h : n < 16777216) : PlainString (sextets n) := by
  intro b hb
  simp only [sextets, mem_cons, not_mem_nil, or_false] at hb
  rcases hb with rfl | rfl | rfl | rfl
  all_goals exact (sextet_ne (by omega)).2

theorem plainString_base64 (bs : Bytes) : PlainString (base64Encode bs) := by
  induction bs using base64Encode.induct with
  | case1 => intro b hb; simp [base64Encode] at hb
  | case2 a =>
    have ha := a.toNat_lt
    refine forall_mem_append.2 ⟨fun x hx => plainString_sextets (by omega) x (mem_of_mem_take hx), fun x hx => ?_⟩
    simp at hx; subst hx; decide
  | case3 a b =>
    have ha := a.toNat_lt
    have hb := b.toNat_lt
    refine forall_mem_append.2 ⟨fun x hx => plainString_sextets (by omega) x (mem_of_mem_take hx), fun x hx => ?_⟩
    simp at hx; subst hx; decide
  | case4 a b c rest ih =>
    have ha := a.toNat_lt
    have hb := b.toNat_lt
    have hc := c.toNat_lt
    exact forall_mem_append.2 ⟨plainString_sextets (by omega), ih⟩

/-! ## Shapes -/

/-- How the values of a type are written and read back. -/
structure Shape (α : Type) where
  put : α → Value
  get : Value → Option α
  get_put : ∀ a, get (put a) = some a
  plain : ∀ a, (put a).Plain

namespace Shape

variable {α β : Type}

def int : Shape Int where
  put n := .num n
  get | .num n => some n | _ => none
  get_put _ := rfl
  plain _ := trivial

def bool : Shape Bool where
  put b := .bool b
  get | .bool b => some b | _ => none
  get_put _ := rfl
  plain _ := trivial

def bytes : Shape Bytes where
  put bs := .str (base64Encode bs)
  get | .str s => base64Decode s | _ => none
  get_put := base64Decode_encode
  plain := plainString_base64

/-- The shape of a type that embeds in another one. -/
def map (s : Shape α) (f : β → α) (g : α → Option β) (h : ∀ b, g (f b) = some b) : Shape β where
  put b := s.put (f b)
  get v := (s.get v).bind g
  get_put b := by rw [s.get_put]; exact h b
  plain b := s.plain (f b)

def nat : Shape Nat := int.map (fun n => (n : Int)) (fun z => if 0 ≤ z then some z.toNat else none) (by simp)

def word : Shape UInt32 := nat.map UInt32.toNat (fun n => some (UInt32.ofNat n)) (by simp)

theorem mapM_get_put (s : Shape α) (as : List α) : (as.map s.put).mapM s.get = some as := by
  induction as with
  | nil => rfl
  | cons a as ih => rw [map_cons, mapM_cons, s.get_put, ih]; rfl

theorem plainElems_map (s : Shape α) (as : List α) : PlainElems (as.map s.put) := by
  induction as with
  | nil => trivial
  | cons a as ih => exact ⟨s.plain a, ih⟩

def list (s : Shape α) : Shape (List α) where
  put as := .arr (as.map s.put)
  get | .arr vs => vs.mapM s.get | _ => none
  get_put := s.mapM_get_put
  plain := s.plainElems_map

end Shape

/-! ## Objects -/

/-- How a field of an object is written, if at all, and read back. -/
structure Member (α : Type) where
  put : α → Option Value
  get : Option Value → Option α
  get_put : ∀ a, get (put a) = some a
  plain : ∀ a v, put a = some v → v.Plain

variable {α : Type}

def Shape.always (s : Shape α) (zero : α) : Member α where
  put a := some (s.put a)
  get | some v => s.get v | none => some zero
  get_put := s.get_put
  plain a v h := by cases h; exact s.plain a

/-- A field that is left out when it has the zero value. -/
def Shape.omitEmpty [DecidableEq α] (s : Shape α) (zero : α) : Member α where
  put a := if a = zero then none else some (s.put a)
  get | some v => s.get v | none => some zero
  get_put a := by
    by_cases h : a = zero
    · simp [h]
    · simp [h, s.get_put]
  plain a v h := by
    split at h
    · cases h
    · cases h; exact s.plain a

def present (fs : List (Bytes × Option Value)) : List (Bytes × Value) := fs.filterMap fun f => f.2.map (f.1, ·)

def find (k : Bytes) : List (Bytes × Option Value) → Option Value
  | [] => none
  | f :: fs => if f.1 = k then f.2 else find k fs

variable {fs : List (Bytes × Option Value)}

theorem lookup_eq_none {k : Bytes} (h : k ∉ fs.map Prod.fst) : (present fs).lookup k = none := by
  rw [lookup_eq_none_iff]
  intro p hp
  obtain ⟨f, hf, hfp⟩ := mem_filterMap.mp hp
  obtain ⟨v, -, rfl⟩ := Option.map_eq_some_iff.mp hfp
  rw [bne_iff_ne]
  rintro rfl
  exact h (mem_map_of_mem hf)

theorem lookup_present (h : (fs.map Prod.fst).Nodup) (k : Bytes) : (present fs).lookup k = find k fs := by
  induction fs with
  | nil => rfl
  | cons f fs ih =>
    obtain ⟨name, v⟩ := f
    rw [map_cons, nodup_cons] at h
    by_cases hk : name = k
    · subst hk
      cases v with
      | none => simpa [present, find] using lookup_eq_none h.1
      | some v => simp [present, find]
    · have hk' : (k == name) = false := by simpa using fun e => hk e.symm
      have hrest := ih h.2
      cases v with
      | none => simpa [present, find, hk] using hrest
      | some v => simpa [present, find, hk, hk', lookup_cons] using hrest

theorem plainFields_present (h : ∀ f ∈ fs, PlainString f.1 ∧ ∀ v, f.2 = some v → v.Plain) :
    PlainFields (present fs) := by
  induction fs with
  | nil => trivial
  | cons f fs ih =>
    obtain ⟨name, v⟩ := f
    have hrest := ih fun g hg => h g (mem_cons_of_mem _ hg)
    obtain ⟨hname, hv⟩ := h (name, v) mem_cons_self
    cases v with
    | none => exact hrest
    | some v => exact ⟨hname, hv v rfl, hrest⟩

theorem map_find_zip {keys : List Bytes} {vs : List (Option Value)} (nodup : keys.Nodup)
    (length : keys.length = vs.length) : keys.map (fun k => find k (keys.zip vs)) = vs := by
  induction keys generalizing vs with
  | nil => simpa using length.symm
  | cons k keys ih =>
    cases vs with
    | nil => simp at length
    | cons v vs =>
      rw [nodup_cons] at nodup
      have hrest : keys.map (fun k' => find k' ((k, v) :: keys.zip vs)) =
          keys.map (fun k' => find k' (keys.zip vs)) := by
        apply map_congr_left
        intro k' hk'
        have hne : k ≠ k' := by
          rintro rfl
          exact nodup.1 hk'
        simp [find, hne]
      rw [zip_cons_cons, map_cons, hrest, ih nodup.2 (by simpa using length)]
      simp [find]

/-- An object from its keys, the values it writes under them and a reader of the values found there. -/
def Shape.object (keys : List Bytes) (values : α → List (Option Value)) (read : List (Option Value) → Option α)
    (length : ∀ a, keys.length = (values a).length) (nodup : keys.Nodup) (plainKeys : ∀ k ∈ keys, PlainString k)
    (plain : ∀ a, ∀ v ∈ values a, ∀ w, v = some w → w.Plain)
    (read_values : ∀ a, read (values a) = some a) : Shape α where
  put a := .obj (present (keys.zip (values a)))
  get | .obj fs => read (keys.map fun k => fs.lookup k)
      | _ => none
  get_put a := by
    have hnodup : ((keys.zip (values a)).map Prod.fst).Nodup := by
      rw [map_fst_zip (length a).le]
      exact nodup
    simp only [lookup_present hnodup, map_find_zip nodup (length a)]
    exact read_values a
  plain a := plainFields_present fun f hf =>
    ⟨plainKeys f.1 (of_mem_zip hf).1, plain a f.2 (of_mem_zip hf).2⟩

/-! ## Maps -/

theorem ofList_toList {κ β : Type} [Ord κ] [Std.TransOrd κ] [Std.LawfulEqOrd κ] [DecidableEq κ]
    (m : Std.ExtTreeMap κ β compare) : Std.ExtTreeMap.ofList m.toList compare = m := by
  apply Std.ExtTreeMap.ext_getElem?
  intro k
  cases hk : m[k]? with
  | none =>
    apply Std.ExtTreeMap.getElem?_ofList_of_contains_eq_false
    rw [Std.ExtTreeMap.map_fst_toList_eq_keys, contains_eq_mem, decide_eq_false_iff_not]
    simpa using hk
  | some v =>
    exact Std.ExtTreeMap.getElem?_ofList_of_mem Std.ReflCmp.compare_self Std.ExtTreeMap.distinct_keys_toList
      (Std.ExtTreeMap.mem_toList_iff_getElem?_eq_some.mpr hk)

theorem ofList_toList_set {κ : Type} [Ord κ] [Std.TransOrd κ] [Std.LawfulEqOrd κ] [DecidableEq κ]
    (m : Std.ExtTreeSet κ compare) : Std.ExtTreeSet.ofList m.toList compare = m := by
  apply Std.ExtTreeSet.ext_mem
  intro k
  rw [Std.ExtTreeSet.mem_ofList, contains_iff_mem, Std.ExtTreeSet.mem_toList]

/-- A finite map as the list of its entries, in the order of the keys. -/
def Shape.entries {κ β : Type} [Ord κ] [Std.TransOrd κ] [Std.LawfulEqOrd κ] [DecidableEq κ]
    (s : Shape (κ × β)) : Shape (Std.ExtTreeMap κ β compare) :=
  s.list.map (fun m => m.toList) (fun l => some (Std.ExtTreeMap.ofList l compare)) fun m => by rw [ofList_toList]

def Shape.set {κ : Type} [Ord κ] [Std.TransOrd κ] [Std.LawfulEqOrd κ] [DecidableEq κ]
    (s : Shape κ) : Shape (Std.ExtTreeSet κ compare) :=
  s.list.map (fun m => m.toList) (fun l => some (Std.ExtTreeSet.ofList l compare)) fun m => by rw [ofList_toList_set]

end CrumbleCracker.JsonText
