import ScopeMerge.Json.Printer
import ScopeMerge.Json.Reader

/-!
# The compact text of a value spells it

Writing goes from a value to characters in one recursion. Reading goes back in two runs,
of the machine that cuts a text into tokens and of the one that builds values from
them. `tokensOf` is what stands between the two: the tokens of the compact form, by the
same recursion as its characters. Each machine is then followed through the recursion,
from any state it can be in where a value begins:

* `lexFrom?_compactChars`: the characters of a value are cut into its tokens;
* `readFrom?_tokensOf`: the tokens of a value deliver it to the innermost container.

A number is the only token that does not know its own end, so the first of the two is
about a value followed by something that ends a number. `parse?_of_isWritten` is both runs on
a whole text. Its one condition is that the numbers have texts that a number can have.
-/

namespace ScopeMerge.Json

/-! ## Digits -/

theorem isDigit_eq (c : Char) : isDigit c = c.isDigit := by
  rw [isDigit, digit?, Bool.eq_iff_iff, Option.isSome_ite, Char.isDigit, Bool.and_eq_true,
    decide_eq_true_iff, decide_eq_true_iff]
  rfl

theorem isDigit_of_mem_toDigits {c : Char} {n : Nat} (h : c ∈ Nat.toDigits 10 n) :
    isDigit c = true := by
  rw [isDigit_eq]
  exact Nat.isDigit_of_mem_toDigits (by decide) (by decide) h

theorem exists_toDigits_eq_cons (n : Nat) :
    ∃ d ds, Nat.toDigits 10 n = d :: ds ∧ isDigit d = true := by
  obtain ⟨d, ds, hd⟩ := List.exists_cons_of_ne_nil (Nat.toDigits_ne_nil (n := n) (b := 10))
  exact ⟨d, ds, hd, isDigit_of_mem_toDigits (hd ▸ List.mem_cons_self)⟩

theorem ofDigits_toDigits (n : Nat) : ofDigits (Nat.toDigits 10 n) = n :=
  Nat.ofDigitChars_toDigits (by decide) (by decide)

/-- A positive number does not begin with a zero. -/
theorem head?_toDigits_ne {n : Nat} (h : 0 < n) : (Nat.toDigits 10 n).head? ≠ some '0' := by
  induction n using Nat.strongRecOn with
  | ind n ih =>
    rw [Nat.toDigits_eq_if (by decide)]
    split
    · next hlt =>
      have : ∀ d < 10, 0 < d → some d.digitChar ≠ some '0' := by decide
      exact this n hlt h
    · next hge =>
      rw [List.head?_append, List.head?_eq_some_head Nat.toDigits_ne_nil, Option.some_or,
        ← List.head?_eq_some_head]
      exact ih (n / 10) (by omega) (by omega)

/-! ## Numbers -/

theorem isNumberChar_of_isDigit {c : Char} (h : isDigit c = true) : isNumberChar c = true := by
  simp [isNumberChar, h]

theorem all_isNumberChar_of_all_isDigit {chars : List Char} (h : chars.all isDigit = true) :
    chars.all isNumberChar = true :=
  List.all_eq_true.mpr fun c hc => isNumberChar_of_isDigit (List.all_eq_true.mp h c hc)

theorem all_isNumberChar_of_isExponent {chars : List Char} (h : isExponent chars = true) :
    chars.all isNumberChar = true := by
  unfold isExponent at h
  split at h <;> rw [Bool.and_eq_true] at h
  · rw [List.all_cons, all_isNumberChar_of_all_isDigit h.2]; rfl
  · rw [List.all_cons, all_isNumberChar_of_all_isDigit h.2]; rfl
  · exact all_isNumberChar_of_all_isDigit h.2

theorem all_isNumberChar_of_isExponentPart {chars : List Char} (h : isExponentPart chars = true) :
    chars.all isNumberChar = true := by
  unfold isExponentPart at h
  split at h
  · rfl
  · rw [List.all_cons, all_isNumberChar_of_isExponent h]; rfl
  · rw [List.all_cons, all_isNumberChar_of_isExponent h]; rfl
  · exact nomatch h

theorem all_isNumberChar_of_isNumberTail {chars : List Char} (h : isNumberTail chars = true) :
    chars.all isNumberChar = true := by
  unfold isNumberTail at h
  split at h
  · next rest =>
    rw [Bool.and_eq_true] at h
    rw [List.all_cons, ← List.takeWhile_append_dropWhile (p := isDigit) (l := rest),
      List.all_append, all_isNumberChar_of_isExponentPart h.2,
      all_isNumberChar_of_all_isDigit List.all_takeWhile]
    rfl
  · exact all_isNumberChar_of_isExponentPart h

/-- What follows the integer part does not begin with one more digit of it. -/
theorem takeWhile_isDigit_of_isNumberTail {chars : List Char} (h : isNumberTail chars = true) :
    chars.takeWhile isDigit = [] := by
  unfold isNumberTail at h
  split at h
  · rfl
  · unfold isExponentPart at h
    split at h
    · rfl
    · rfl
    · rfl
    · exact nomatch h

theorem unsigned?_append (negative : Bool) (whole : Nat) {tail : List Char}
    (h : isNumberTail tail = true) :
    unsigned? negative (Nat.toDigits 10 whole ++ tail) =
      some { negative, whole, tail := String.ofList tail } := by
  have hdigits : (Nat.toDigits 10 whole ++ tail).takeWhile isDigit = Nat.toDigits 10 whole := by
    rw [List.takeWhile_append_of_pos fun c hc => isDigit_of_mem_toDigits hc,
      takeWhile_isDigit_of_isNumberTail h, List.append_nil]
  have htail : (Nat.toDigits 10 whole ++ tail).dropWhile isDigit = tail := by
    rw [List.dropWhile_append_of_pos fun c hc => isDigit_of_mem_toDigits hc]
    have := List.takeWhile_append_dropWhile (p := isDigit) (l := tail)
    rwa [takeWhile_isDigit_of_isNumberTail h] at this
  have hfirst : (Nat.toDigits 10 whole).length > 1 → (Nat.toDigits 10 whole).head? ≠ some '0' := by
    intro hlength
    refine head?_toDigits_ne (Nat.pos_of_ne_zero fun hzero => ?_)
    rw [hzero] at hlength
    exact absurd hlength (by decide)
  simp only [unsigned?, hdigits, htail, ofDigits_toDigits]
  rw [if_neg]
  simp only [Bool.or_eq_true, Bool.and_eq_true, List.isEmpty_iff, Nat.toDigits_ne_nil, h,
    decide_eq_true_iff, beq_iff_eq, false_or, Bool.not_true, or_false, Bool.false_eq_true]
  exact fun hzero => hfirst hzero.1 hzero.2

/-- A number is read back from its text. -/
theorem Number.ofChars?_chars {number : Number} (h : isNumberTail number.tail.toList = true) :
    Number.ofChars? number.chars = some number := by
  obtain ⟨negative, whole, tail⟩ := number
  have hread := unsigned?_append negative whole h
  rw [String.ofList_toList] at hread
  cases negative with
  | true => exact hread
  | false =>
      -- without a sign the text begins with a digit, so with no minus either
      obtain ⟨d, ds, hd, hdigit⟩ := exists_toDigits_eq_cons whole
      have hminus : d ≠ '-' := by
        rintro rfl
        exact absurd hdigit (by decide)
      have hchars : Number.chars { negative := false, whole, tail } =
          Nat.toDigits 10 whole ++ tail.toList := rfl
      rw [hchars, ← hread, hd]
      unfold Number.ofChars?
      split
      · next heq => exact absurd (List.cons.inj heq).1 hminus
      · rfl

/-! ## Runs of the machine that cuts tokens -/

/-- Nothing more, or a character that no token but the next one can hold. -/
def Ends (rest : List Char) : Prop :=
  ∀ c, rest.head? = some c → isNumberChar c = false ∧ c.isLower = false

theorem ends_nil : Ends [] := fun _ h => nomatch h

theorem ends_cons {c : Char} {rest : List Char}
    (h : isNumberChar c = false ∧ c.isLower = false) : Ends (c :: rest) := by
  intro d hd
  obtain rfl : c = d := Option.some.inj hd
  exact h

/-- A word or a number that was collected ends where nothing of its kind follows. -/
theorem lexFrom?_of_ended {rest : List Char} {tokens more : List Token} {lexing : Lexing}
    (hended : ended? tokens lexing = some more)
    (hnext : ∀ c, rest.head? = some c →
      lexChar? tokens c lexing = (ended? tokens lexing).bind (begin? · c)) :
    lexFrom? rest tokens lexing = lexFrom? rest more .between := by
  cases rest with
  | nil => exact hended
  | cons c rest => rw [lexFrom?, hnext c rfl, hended]; rfl

theorem lexFrom?_numberChars {chars : List Char} (h : chars.all isNumberChar = true)
    (sofar rest : List Char) (tokens : List Token) :
    lexFrom? (chars ++ rest) tokens (.number sofar) =
      lexFrom? rest tokens (.number (chars.reverse ++ sofar)) := by
  induction chars generalizing sofar with
  | nil => rfl
  | cons c chars ih =>
      rw [List.all_cons, Bool.and_eq_true] at h
      rw [List.cons_append, lexFrom?, lexChar?, if_pos h.1]
      simp only [ih h.2, List.reverse_cons, List.append_assoc, List.singleton_append]

/-- A digit or a minus begins a number. -/
theorem begin?_number (tokens : List Token) {c : Char} (h : (isDigit c || c == '-') = true) :
    begin? tokens c = some (tokens, .number [c]) := by
  have hne : ∀ d, (isDigit d || d == '-') = false → c ≠ d := by
    rintro d hd rfl
    rw [h] at hd
    exact nomatch hd
  have hspace : isSpace c = false := by
    simp only [isSpace, Bool.or_eq_false_iff, beq_eq_false_iff_ne]
    exact ⟨⟨⟨hne _ (by decide), hne _ (by decide)⟩, hne _ (by decide)⟩, hne _ (by decide)⟩
  rw [begin?, hspace, if_neg Bool.false_ne_true, if_neg (hne _ (by decide)),
    if_neg (hne _ (by decide)), if_neg (hne _ (by decide)), if_neg (hne _ (by decide)),
    if_neg (hne _ (by decide)), if_neg (hne _ (by decide)), if_neg (hne _ (by decide)), if_pos h]

theorem lexFrom?_number {number : Number} (h : isNumberTail number.tail.toList = true)
    {rest : List Char} (hrest : Ends rest) (tokens : List Token) :
    lexFrom? (number.chars ++ rest) tokens .between =
      lexFrom? rest (.number number :: tokens) .between := by
  have hread := Number.ofChars?_chars h
  have hall : number.chars.all isNumberChar = true := by
    simp only [Number.chars, List.all_append, all_isNumberChar_of_isNumberTail h, Bool.and_true]
    rw [all_isNumberChar_of_all_isDigit (List.all_eq_true.mpr fun c => isDigit_of_mem_toDigits)]
    cases number.negative <;> rfl
  have hfirst : ∃ c cs, number.chars = c :: cs ∧ (isDigit c || c == '-') = true := by
    obtain ⟨d, ds, hd, hdigit⟩ := exists_toDigits_eq_cons number.whole
    unfold Number.chars
    cases number.negative with
    | true => exact ⟨'-', _, rfl, rfl⟩
    | false =>
        rw [hd]
        exact ⟨d, _, rfl, by rw [hdigit, Bool.true_or]⟩
  obtain ⟨c, cs, hchars, hc⟩ := hfirst
  rw [hchars] at hread hall ⊢
  rw [List.all_cons, Bool.and_eq_true] at hall
  rw [List.cons_append, lexFrom?, lexChar?, begin?_number tokens hc]
  simp only [lexFrom?_numberChars hall.2]
  refine lexFrom?_of_ended ?_ fun d hd => ?_
  · rw [ended?, List.reverse_append, List.reverse_reverse, List.reverse_singleton,
      List.singleton_append, hread]
    rfl
  · rw [lexChar?, (hrest d hd).1, if_neg Bool.false_ne_true]

theorem lexFrom?_word (letters : List Char) {token : Token} (h : literal? letters = some token)
    {rest : List Char} (hrest : Ends rest) (tokens : List Token) :
    lexFrom? rest tokens (.word letters.reverse) = lexFrom? rest (token :: tokens) .between := by
  refine lexFrom?_of_ended ?_ fun d hd => ?_
  · rw [ended?, List.reverse_reverse, h]
    rfl
  · rw [lexChar?, (hrest d hd).2, if_neg Bool.false_ne_true]

/-! ## Strings -/

theorem hexDigit?_hexDigit : ∀ d < 16, hexDigit? (hexDigit d) = some d := by decide

/-- A control character is written by its code, and is no part of a surrogate pair. -/
theorem pushUnit_of_control {c : Char} (h : c.toNat < 0x20) (chars : List Char) :
    Collected.pushUnit { chars } (16 * (c.toNat / 16) + c.toNat % 16) =
      { chars := c :: chars } := by
  rw [Nat.div_add_mod, Collected.pushUnit, if_neg (by omega), if_neg (by omega), Char.ofNat_toNat]
  rfl

theorem lexFrom?_escapeChar (c : Char) (chars rest : List Char) (tokens : List Token) :
    lexFrom? (escapeChar c ++ rest) tokens (.string { chars }) =
      lexFrom? rest tokens (.string { chars := c :: chars }) := by
  unfold escapeChar
  split
  · next h => subst h; rfl
  split
  · next h => subst h; rfl
  split
  · next h => subst h; rfl
  split
  · next h => subst h; rfl
  split
  · next h => subst h; rfl
  split
  · next h => subst h; rfl
  split
  · next h => subst h; rfl
  split
  · next h =>
    have hhigh := hexDigit?_hexDigit (c.toNat / 16) (by omega)
    have hlow := hexDigit?_hexDigit (c.toNat % 16) (by omega)
    have hzero : hexDigit? '0' = some 0 := by decide
    have hquote : ('\\' : Char) ≠ '"' := by decide
    simp only [List.cons_append, List.nil_append, lexFrom?, lexChar?, hzero, hhigh, hlow,
      Option.map_some, if_neg hquote, ↓reduceIte, Nat.mul_zero, Nat.zero_add, pushUnit_of_control h]
  · next hquote hback _ _ _ _ _ hcontrol =>
    rw [List.singleton_append, lexFrom?, lexChar?, if_neg hquote, if_neg hback, if_neg hcontrol]
    rfl

theorem lexFrom?_escaped (text chars rest : List Char) (tokens : List Token) :
    lexFrom? (text.flatMap escapeChar ++ rest) tokens (.string { chars }) =
      lexFrom? rest tokens (.string { chars := text.reverse ++ chars }) := by
  induction text generalizing chars with
  | nil => rfl
  | cons c text ih =>
      rw [List.flatMap_cons, List.append_assoc, lexFrom?_escapeChar, ih, List.reverse_cons,
        List.append_assoc, List.singleton_append]

theorem lexFrom?_quote (text : String) (rest : List Char) (tokens : List Token) :
    lexFrom? (quote text ++ rest) tokens .between =
      lexFrom? rest (.string (some text) :: tokens) .between := by
  have hopen : begin? tokens '"' = some (tokens, .string {}) := rfl
  have hclose : lexChar? tokens '"' (.string { chars := text.toList.reverse }) =
      some (.string (some text) :: tokens, .between) := by
    rw [lexChar?, if_pos rfl, Collected.token]
    simp [Collected.settle]
  rw [quote, List.cons_append, List.cons_append, List.append_assoc, lexFrom?, lexChar?, hopen]
  simp only [lexFrom?_escaped, List.append_nil, List.singleton_append]
  rw [lexFrom?, hclose]

/-! ## The tokens of a value -/

mutual

/-- The tokens of the compact form. -/
def tokensOf : Json → List Token
  | .null => [.literal .null]
  | .bool value => [.literal (.bool value)]
  | .number value => [.number value]
  | .text value => [.string (some value)]
  | .array items => .openArray :: tokensOfItems items ++ [.closeArray]
  | .object members => .openObject :: tokensOfMembers members ++ [.closeObject]
  | .unreadable => [.string none]

def tokensOfItems : List Json → List Token
  | [] => []
  | [item] => tokensOf item
  | item :: rest => tokensOf item ++ .comma :: tokensOfItems rest

def tokensOfMembers : List (String × Json) → List Token
  | [] => []
  | [(key, value)] => .string (some key) :: .colon :: tokensOf value
  | (key, value) :: rest =>
    .string (some key) :: .colon :: tokensOf value ++ .comma :: tokensOfMembers rest

end

/-- Whether a scalar is written as a text can write it: what is kept of a number has to be one
that can follow the integer part. -/
def isWritten : Json → Bool
  | .number value => isNumberTail value.tail.toList
  | _ => true

theorem ends_comma (rest : List Char) : Ends (',' :: rest) := ends_cons (by decide)

theorem ends_closeArray (rest : List Char) : Ends (']' :: rest) := ends_cons (by decide)

theorem ends_closeObject (rest : List Char) : Ends ('\x7d' :: rest) := ends_cons (by decide)

/-- A character that is a token of its own. -/
theorem lexFrom?_mark (token : Token) {c : Char} {tokens : List Token}
    (h : begin? tokens c = some (token :: tokens, .between)) (rest : List Char) :
    lexFrom? (c :: rest) tokens .between = lexFrom? rest (token :: tokens) .between := by
  rw [lexFrom?, lexChar?, h]

mutual

/-- The characters of a value are cut into its tokens. -/
theorem lexFrom?_compactChars (json : Json) (h : json.allScalars isWritten = true)
    {rest : List Char} (hrest : Ends rest) (tokens : List Token) :
    lexFrom? (compactChars json ++ rest) tokens .between =
      lexFrom? rest ((tokensOf json).reverse ++ tokens) .between := by
  match json with
  | .null => exact lexFrom?_word "null".toList rfl hrest tokens
  | .bool true => exact lexFrom?_word "true".toList rfl hrest tokens
  | .bool false => exact lexFrom?_word "false".toList rfl hrest tokens
  | .number value => exact lexFrom?_number h hrest tokens
  | .text value => exact lexFrom?_quote value rest tokens
  | .array items =>
      rw [compactChars, List.cons_append, List.cons_append, List.append_assoc,
        List.singleton_append, lexFrom?_mark .openArray rfl,
        lexFrom?_compactItems items h, lexFrom?_mark .closeArray rfl]
      simp [tokensOf]
  | .object members =>
      rw [compactChars, List.cons_append, List.cons_append, List.append_assoc,
        List.singleton_append, lexFrom?_mark .openObject rfl,
        lexFrom?_compactMembers members h, lexFrom?_mark .closeObject rfl]
      simp [tokensOf]
  | .unreadable => rfl

theorem lexFrom?_compactItems (items : List Json) (h : allInItems isWritten items = true)
    (rest : List Char) (tokens : List Token) :
    lexFrom? (compactItems items ++ ']' :: rest) tokens .between =
      lexFrom? (']' :: rest) ((tokensOfItems items).reverse ++ tokens) .between := by
  match items with
  | [] => rfl
  | [item] =>
      rw [allInItems, Bool.and_eq_true] at h
      exact lexFrom?_compactChars item h.1 (ends_closeArray rest) tokens
  | item :: next :: more =>
      rw [allInItems, Bool.and_eq_true] at h
      rw [compactItems, List.append_assoc, List.cons_append,
        lexFrom?_compactChars item h.1 (ends_comma _), lexFrom?_mark .comma rfl,
        lexFrom?_compactItems (next :: more) h.2]
      · simp [tokensOfItems]
      · exact List.cons_ne_nil next more

theorem lexFrom?_compactMembers (members : List (String × Json))
    (h : allInMembers isWritten members = true) (rest : List Char) (tokens : List Token) :
    lexFrom? (compactMembers members ++ '\x7d' :: rest) tokens .between =
      lexFrom? ('\x7d' :: rest) ((tokensOfMembers members).reverse ++ tokens) .between := by
  match members with
  | [] => rfl
  | [(key, value)] =>
      rw [allInMembers, Bool.and_eq_true] at h
      rw [compactMembers, List.append_assoc, List.cons_append, lexFrom?_quote,
        lexFrom?_mark .colon rfl,
        lexFrom?_compactChars value h.1 (ends_closeObject rest)]
      simp [tokensOfMembers]
  | (key, value) :: next :: more =>
      rw [allInMembers, Bool.and_eq_true] at h
      rw [compactMembers, List.append_assoc, List.append_assoc, List.cons_append, List.cons_append,
        lexFrom?_quote, lexFrom?_mark .colon rfl,
        lexFrom?_compactChars value h.1 (ends_comma _), lexFrom?_mark .comma rfl,
        lexFrom?_compactMembers (next :: more) h.2]
      · simp [tokensOfMembers]
      · exact List.cons_ne_nil next more

end

/-! ## Runs of the machine that builds values -/

theorem readFrom?_cons {token : Token} {reading next : Reading}
    (h : readToken? token reading = some next) (rest : List Token) :
    readFrom? (token :: rest) reading = readFrom? rest next := by
  rw [readFrom?, h]

/-- The first item of an array is read as any later one. -/
theorem readFrom?_firstItem (item : Json) (more : List Json) (rest : List Token)
    (frames : List Frame) :
    readFrom? (tokensOfItems (item :: more) ++ rest) (.firstItem frames) =
      readFrom? (tokensOfItems (item :: more) ++ rest) (.value (.array [] :: frames)) := by
  cases more <;> cases item <;> rfl

/-- The first key of an object is read as any later one. -/
theorem readFrom?_firstKey (member : String × Json) (more : List (String × Json))
    (rest : List Token) (frames : List Frame) :
    readFrom? (tokensOfMembers (member :: more) ++ rest) (.firstKey frames) =
      readFrom? (tokensOfMembers (member :: more) ++ rest) (.key [] frames) := by
  cases more <;> rfl

theorem readableMembers?_eq (members : List (String × Json)) :
    readableMembers? (members.map fun member => (some member.1, member.2)) = some members := by
  induction members with
  | nil => rfl
  | cons member members ih =>
      rw [List.map_cons, readableMembers?, ih]
      rfl

theorem closedObject_eq (members : List (String × Json)) :
    closedObject (members.map fun member => (some member.1, member.2)) = .object members := by
  rw [closedObject, readableMembers?_eq]

mutual

/-- The tokens of a value deliver it. -/
theorem readFrom?_tokensOf (json : Json) (rest : List Token) (frames : List Frame) :
    readFrom? (tokensOf json ++ rest) (.value frames) = readFrom? rest (deliver json frames) := by
  match json with
  | .null => rfl
  | .bool value => rfl
  | .number value => rfl
  | .text value => rfl
  | .array [] => rfl
  | .array (item :: more) =>
      rw [tokensOf, List.cons_append, List.cons_append, List.append_assoc, List.singleton_append,
        readFrom?_cons rfl, readFrom?_firstItem,
        readFrom?_tokensOfItems (item :: more) (List.cons_ne_nil item more)]
      rfl
  | .object [] => rfl
  | .object (member :: more) =>
      rw [tokensOf, List.cons_append, List.cons_append, List.append_assoc, List.singleton_append,
        readFrom?_cons rfl, readFrom?_firstKey,
        readFrom?_tokensOfMembers (member :: more) (List.cons_ne_nil member more),
        List.reverse_nil, List.nil_append, closedObject_eq]
  | .unreadable => rfl

theorem readFrom?_tokensOfItems (items : List Json) (h : items ≠ []) (sofar : List Json)
    (rest : List Token) (frames : List Frame) :
    readFrom? (tokensOfItems items ++ .closeArray :: rest) (.value (.array sofar :: frames)) =
      readFrom? rest (deliver (.array (sofar.reverse ++ items)) frames) := by
  match items with
  | [] => exact absurd rfl h
  | [item] =>
      rw [tokensOfItems, readFrom?_tokensOf item, deliver, readFrom?_cons rfl, List.reverse_cons]
  | item :: next :: more =>
      have hmore := List.cons_ne_nil next more
      rw [tokensOfItems, List.append_assoc, List.cons_append, readFrom?_tokensOf item,
        deliver, readFrom?_cons rfl, readFrom?_tokensOfItems (next :: more) hmore,
        List.reverse_cons, List.append_assoc, List.singleton_append]
      exact hmore

theorem readFrom?_tokensOfMembers (members : List (String × Json)) (h : members ≠ [])
    (sofar : List (Option String × Json)) (rest : List Token) (frames : List Frame) :
    readFrom? (tokensOfMembers members ++ .closeObject :: rest) (.key sofar frames) =
      readFrom? rest (deliver (closedObject
        (sofar.reverse ++ members.map fun member => (some member.1, member.2))) frames) := by
  match members with
  | [] => exact absurd rfl h
  | [(key, value)] =>
      rw [tokensOfMembers, List.cons_append, List.cons_append, readFrom?_cons rfl,
        readFrom?_cons rfl, readFrom?_tokensOf value, deliver, readFrom?_cons rfl,
        List.reverse_cons]
      rfl
  | (key, value) :: next :: more =>
      have hmore := List.cons_ne_nil next more
      rw [tokensOfMembers, List.append_assoc, List.cons_append, List.cons_append, List.cons_append,
        readFrom?_cons rfl, readFrom?_cons rfl, readFrom?_tokensOf value, deliver,
        readFrom?_cons rfl, readFrom?_tokensOfMembers (next :: more) hmore, List.reverse_cons,
        List.append_assoc, List.singleton_append]
      · rfl
      · exact hmore

end

/-! ## Whole texts -/

theorem ofTokens?_tokensOf (json : Json) : ofTokens? (tokensOf json) = some json := by
  have hrun := readFrom?_tokensOf json [] []
  rw [List.append_nil] at hrun
  rw [ofTokens?, hrun]
  rfl

/-- The compact text of a value is read back as the value. -/
theorem parse?_of_isWritten {json : Json} (h : json.allScalars isWritten = true) :
    parse? json.compact = some json := by
  have hcut := lexFrom?_compactChars json h ends_nil []
  rw [List.append_nil, List.append_nil] at hcut
  have htokens : tokens? (compactChars json) = some (tokensOf json) := by
    rw [tokens?, hcut, lexFrom?, ended?, Option.map_some, List.reverse_reverse]
  rw [parse?, compact, String.toList_ofList, htokens, Option.bind_some, ofTokens?_tokensOf]

end ScopeMerge.Json
