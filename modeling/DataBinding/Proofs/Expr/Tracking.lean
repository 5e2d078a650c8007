import DataBinding.Proofs.Expr.Scan

/-!
# A scan does what the reader does

The reader holds the text that is left, and a scanner the offset at which it starts. From
corresponding places the two give the same result or the same error, and get to corresponding
places: every offset is that of the text that is left, and so lies between two characters.

Results:
* `Agrees.bind`, `Agrees.step`, `Agrees.stop`: steps that agree, one after the other.
* `agrees_advance`, `agrees_taken`: passing a part of the text, and cutting it out.
* `agrees_skipWhile`, `Agrees.consume`, `Agrees.keyword`, `Agrees.require`: symbols and words.
* `agrees_name_of_nil`, `agrees_name_of_ne_nil`: names.
* `agrees_number`, `agrees_quoted`: literals.
-/

namespace DataBinding.Expr

open Text (isBlank isDigit)

/-! ## Corresponding places -/

/-- The scanner whose cursor is at the text that is left. -/
def Cursor.scanner (source : Source) (depth : Nat) (cursor : Cursor) : Scanner :=
  ⟨Text.bytes source.text - Text.bytes cursor.rest, depth, cursor.operators⟩

/-- The error of a fault in a text. -/
def Fault.located (source : Source) (fault : Fault) : ParseError :=
  ⟨fault.cause, Text.bytes source.text - Text.bytes fault.rest, String.ofList source.text⟩

/-- Some of the text was taken, and some operators were met. -/
structure Cursor.Onward (cursor next : Cursor) : Prop where
  rest : next.rest <:+ cursor.rest
  operators : cursor.operators ≤ next.operators

theorem Cursor.Onward.refl (cursor : Cursor) : cursor.Onward cursor :=
  ⟨List.suffix_refl _, Nat.le_refl _⟩

theorem Cursor.Onward.trans {a b c : Cursor} (h : a.Onward b) (h' : b.Onward c) : a.Onward c :=
  ⟨h'.rest.trans h.rest, Nat.le_trans h.operators h'.operators⟩

/-- From the place of the cursor the scan gives what the reader gives, and gets to the same
    place. -/
def Agrees {α : Type} (source : Source) (depth : Nat) (cursor : Cursor) (scan : Scan α) :
    Except Fault (α × Cursor) → Prop
  | .ok (a, next) => cursor.rest <:+ source.text →
    scan (cursor.scanner source depth) = some (.ok (a, next.scanner source depth)) ∧
      cursor.Onward next
  | .error fault => cursor.rest <:+ source.text →
    scan (cursor.scanner source depth) = some (.error (fault.located source)) ∧
      fault.rest <:+ cursor.rest

/-- From every place the scan does what the reader does. -/
def Tracks {α : Type} (source : Source) (depth : Nat) (scan : Scan α) (reader : Reader α) : Prop :=
  ∀ cursor, Agrees source depth cursor scan (reader cursor)

namespace Scan

variable {α β : Type} {x : Scan α} {f : α → Scan β} {s s' : Scanner} {a : α} {e : ParseError}

theorem bind_of_ok (h : x s = some (.ok (a, s'))) : (x >>= f) s = f a s' := by
  simp only [bind, StateT.bind, ExceptT.bind, ExceptT.mk, ExceptT.bindCont, Option.bind, h]

theorem bind_of_error (h : x s = some (.error e)) : (x >>= f) s = some (.error e) := by
  simp only [bind, StateT.bind, ExceptT.bind, ExceptT.mk, ExceptT.bindCont, Option.bind, h, pure]

end Scan

section Steps

variable {α β : Type} {source : Source} {depth : Nat} {cursor : Cursor}

theorem agrees_pure (a : α) : Agrees source depth cursor (pure a) (.ok (a, cursor)) :=
  fun _ => ⟨rfl, .refl cursor⟩

theorem agrees_fault (cause : FaultCause) :
    Agrees source depth cursor (source.fault cause : Scan α) (fail cause cursor.rest) :=
  fun _ => ⟨rfl, List.suffix_refl _⟩

/-- What is left is a part of the text. -/
theorem Agrees.assume {scan : Scan α} {read : Except Fault (α × Cursor)}
    (h : cursor.rest <:+ source.text → Agrees source depth cursor scan read) :
    Agrees source depth cursor scan read := by
  cases read with
  | error fault => exact fun hcursor => h hcursor hcursor
  | ok r => exact fun hcursor => h hcursor hcursor

theorem Agrees.bind {scan : Scan α} {read : Except Fault (α × Cursor)} {f : α → Scan β}
    {g : α × Cursor → Except Fault (β × Cursor)} (h : Agrees source depth cursor scan read)
    (hf : ∀ a next, read = .ok (a, next) → cursor.Onward next →
      Agrees source depth next (f a) (g (a, next))) :
    Agrees source depth cursor (scan >>= f) (read >>= g) := by
  refine .assume fun hcursor => ?_
  cases read with
  | error fault =>
    obtain ⟨hscan, hrest⟩ := h hcursor
    exact fun _ => ⟨Scan.bind_of_error hscan, hrest⟩
  | ok r =>
    obtain ⟨a, next⟩ := r
    obtain ⟨hscan, honward⟩ := h hcursor
    have hnext := hf a next rfl honward
    rw [ok_bind]
    cases hg : g (a, next) with
    | error fault =>
      rw [hg] at hnext
      obtain ⟨hscan', hrest⟩ := hnext (honward.rest.trans hcursor)
      exact fun _ => ⟨by rw [Scan.bind_of_ok hscan, hscan'], hrest.trans honward.rest⟩
    | ok r =>
      rw [hg] at hnext
      obtain ⟨hscan', honward'⟩ := hnext (honward.rest.trans hcursor)
      exact fun _ => ⟨by rw [Scan.bind_of_ok hscan, hscan'], honward.trans honward'⟩

/-- A step that cannot fail leads on to the rest of the scan. -/
theorem Agrees.step {scan : Scan α} {a : α} {next : Cursor} {f : α → Scan β}
    {read : Except Fault (β × Cursor)} (h : Agrees source depth cursor scan (.ok (a, next)))
    (hf : Agrees source depth next (f a) read) : Agrees source depth cursor (scan >>= f) read := by
  refine h.bind (g := fun _ => read) fun a' next' hok _ => ?_
  obtain ⟨rfl, rfl⟩ := Prod.mk.inj (Except.ok.inj hok)
  exact hf

/-- Where a step fails, the scan does. -/
theorem Agrees.stop {scan : Scan α} {fault : Fault}
    (h : Agrees source depth cursor scan (.error fault)) (f : α → Scan β) :
    Agrees source depth cursor (scan >>= f) (.error fault) :=
  h.bind (g := fun _ => .error fault) fun _ _ hok _ => by cases hok

/-! ## The text at the cursor -/

/-- The offset at the end of a front of the text. -/
theorem offset_eq {front rest : List Char} (h : source.text = front ++ rest) :
    Text.bytes source.text - Text.bytes rest = Text.bytes front := by
  rw [h, Text.bytes_append]
  omega

theorem agrees_offset :
    Agrees source depth cursor Scan.offset
      (.ok (Text.bytes source.text - Text.bytes cursor.rest, cursor)) :=
  fun _ => ⟨rfl, .refl cursor⟩

theorem moveTo_eq {front rest : List Char} (h : source.text = front ++ rest) (scanner : Scanner) :
    source.moveTo (Text.bytes front) scanner =
      some (.ok ((), { scanner with offset := Text.bytes source.text - Text.bytes rest })) := by
  rw [offset_eq h, Source.moveTo, h, Text.splitAt?_append]
  rfl

theorem restFrom_eq {front rest : List Char} (h : source.text = front ++ rest) (scanner : Scanner) :
    source.restFrom (Text.bytes front) scanner = some (.ok (rest, scanner)) := by
  rw [Source.restFrom, Text.sliceFrom?, h, Text.splitAt?_append]
  rfl

theorem agrees_rest : Agrees source depth cursor source.rest (.ok (cursor.rest, cursor)) := by
  refine .assume fun ⟨front, hfront⟩ => .step agrees_offset fun _ => ⟨?_, .refl cursor⟩
  rw [offset_eq hfront.symm, restFrom_eq hfront.symm]

theorem agrees_peek :
    Agrees source depth cursor source.peek (.ok (cursor.rest.head?, cursor)) :=
  .step agrees_rest (agrees_pure _)

/-- What comes next is passed. -/
theorem agrees_advance (front : List Char) {rest : List Char} (h : cursor.rest = front ++ rest) :
    Agrees source depth cursor (source.advance (Text.bytes front))
      (.ok ((), { cursor with rest := rest })) := by
  refine .assume fun ⟨before, hbefore⟩ => .step agrees_offset fun _ => ⟨?_, ⟨front, h.symm⟩,
    Nat.le_refl _⟩
  rw [offset_eq hbefore.symm, ← Text.bytes_append]
  exact moveTo_eq (by rw [← hbefore, h, List.append_assoc]) _

theorem agrees_pass (c : Char) (rest : List Char) (k : Nat) :
    Agrees source depth ⟨c :: rest, k⟩ (source.advance c.utf8Size) (.ok ((), ⟨rest, k⟩)) :=
  agrees_advance [c] rfl

/-- The text from an earlier place up to the cursor. -/
theorem agrees_taken {start front : List Char} (hstart : start <:+ source.text)
    (h : start = front ++ cursor.rest) :
    Agrees source depth cursor (source.taken (Text.bytes source.text - Text.bytes start))
      (.ok (front, cursor)) := by
  obtain ⟨before, hbefore⟩ := hstart
  refine fun _ => ⟨?_, .refl cursor⟩
  have hstop : source.text = (before ++ front) ++ cursor.rest := by
    rw [← hbefore, h, List.append_assoc]
  have hwidth : Text.bytes (before ++ front) - Text.bytes before = Text.bytes front := by
    rw [Text.bytes_append]
    omega
  have hle : Text.bytes before ≤ Text.bytes (before ++ front) := by
    rw [Text.bytes_append]
    omega
  rw [Source.taken, Cursor.scanner, offset_eq hbefore.symm, offset_eq hstop, Text.slice?,
    if_pos hle, hwidth, ← hbefore, Text.sliceFrom?, Text.splitAt?_append, h]
  simp only [Option.map_some, Option.bind_some, Text.splitAt?_append]

/-! ## Words and symbols -/

theorem agrees_skipWhile {p : Char → Bool} {width : Char → Nat}
    (hwidth : ∀ c, p c = true → width c = c.utf8Size) :
    Agrees source depth cursor (source.skipWhile p width)
      (.ok ((), { cursor with rest := cursor.rest.dropWhile p })) := by
  obtain ⟨rest, k⟩ := cursor
  induction rest with
  | nil =>
    rw [Source.skipWhile.eq_1]
    exact .step agrees_peek (agrees_pure _)
  | cons c cs ih =>
    rw [Source.skipWhile.eq_1]
    refine .step agrees_peek ?_
    simp only [List.head?_cons]
    by_cases hc : p c = true
    · rw [if_pos hc, List.dropWhile_cons_of_pos hc, hwidth c hc]
      exact .step (agrees_pass c cs k) ih
    · rw [if_neg hc, List.dropWhile_cons_of_neg hc]
      exact agrees_pure _

theorem agrees_skipBlanks :
    Agrees source depth cursor source.skipBlanks (.ok ((), cursor.skipBlanks)) :=
  agrees_skipWhile fun _ _ => rfl

theorem agrees_consume (source : Source) (depth : Nat) (cursor : Cursor) (symbol : List Char) :
    Agrees source depth cursor (source.consume symbol)
      (match Text.dropPrefix? symbol cursor.rest with
      | some rest => .ok (true, { cursor with rest := rest })
      | none => .ok (false, cursor)) := by
  cases h : Text.dropPrefix? symbol cursor.rest with
  | some rest =>
    refine .step agrees_rest ?_
    rw [Text.startsWith, h, if_pos (by rfl)]
    exact .step (agrees_advance symbol (Text.eq_append_of_dropPrefix? h)) (agrees_pure _)
  | none =>
    refine .step agrees_rest ?_
    rw [Text.startsWith, h, if_neg (by simp)]
    exact agrees_pure _

theorem agrees_peekWord :
    Agrees source depth cursor source.peekWord (.ok ((takeName cursor.rest).1, cursor)) := by
  refine .step agrees_rest ?_
  have hsplit : Text.splitAt? (Text.bytes (cursor.rest.takeWhile isNameChar)) cursor.rest =
      some (takeName cursor.rest) := by
    have happend := Text.splitAt?_append (takeName cursor.rest).1 (takeName cursor.rest).2
    rw [takeName_append] at happend
    exact happend
  rw [hsplit]
  exact agrees_pure _

theorem agrees_keyword (source : Source) (depth : Nat) (cursor : Cursor) (word : List Char) :
    Agrees source depth cursor (source.keyword word)
      (match keyword? word cursor.rest with
      | some rest => .ok (true, { cursor with rest := rest })
      | none => .ok (false, cursor)) := by
  refine .step agrees_peekWord ?_
  rw [keyword?]
  by_cases h : (takeName cursor.rest).1 = word
  · rw [if_pos h, if_pos h]
    refine .step (agrees_advance word ?_) (agrees_pure _)
    rw [← h, takeName_append]
  · rw [if_neg h, if_neg h]
    exact agrees_pure _

/-- A symbol is passed if it comes next. -/
theorem Agrees.consume {symbol : List Char} {found other : Scan β}
    {read : Except Fault (β × Cursor)}
    (hfound : ∀ rest, Text.dropPrefix? symbol cursor.rest = some rest →
      Agrees source depth { cursor with rest := rest } found read)
    (hother : Text.dropPrefix? symbol cursor.rest = none → Agrees source depth cursor other read) :
    Agrees source depth cursor
      (source.consume symbol >>= fun passed => if passed = true then found else other) read := by
  have h := agrees_consume source depth cursor symbol
  cases hdrop : Text.dropPrefix? symbol cursor.rest with
  | some rest =>
    rw [hdrop] at h
    exact h.step (hfound rest hdrop)
  | none =>
    rw [hdrop] at h
    exact h.step (hother hdrop)

/-- A word is passed if it comes next. -/
theorem Agrees.keyword {word : List Char} {found other : Scan β}
    {read : Except Fault (β × Cursor)}
    (hfound : ∀ rest, keyword? word cursor.rest = some rest →
      Agrees source depth { cursor with rest := rest } found read)
    (hother : keyword? word cursor.rest = none → Agrees source depth cursor other read) :
    Agrees source depth cursor
      (source.keyword word >>= fun passed => if passed = true then found else other) read := by
  have h := agrees_keyword source depth cursor word
  cases hword : keyword? word cursor.rest with
  | some rest =>
    rw [hword] at h
    exact h.step (hfound rest hword)
  | none =>
    rw [hword] at h
    exact h.step (hother hword)

theorem Agrees.require {c : Char} {f : Unit → Scan β}
    {g : List Char → Except Fault (β × Cursor)}
    (hf : ∀ rest, Text.dropPrefix? [c] cursor.rest = some rest →
      Agrees source depth { cursor with rest := rest } (f ()) (g rest)) :
    Agrees source depth cursor (source.require c >>= f) (expect c cursor.rest >>= g) := by
  have hrequire : Agrees source depth cursor (source.require c)
      ((expect c cursor.rest).map fun rest => ((), { cursor with rest := rest })) := by
    refine .consume (fun rest hrest => ?_) (fun hnone => ?_)
    · rw [expect, hrest]
      exact agrees_pure _
    · rw [expect, hnone]
      exact agrees_fault _
  cases h : Text.dropPrefix? [c] cursor.rest with
  | some rest =>
    rw [expect, h] at hrequire ⊢
    exact hrequire.step (hf rest h)
  | none =>
    rw [expect, h] at hrequire ⊢
    exact hrequire.stop f

/-- An offset after a part of what is left. -/
theorem offset_append {front rest : List Char} (hcursor : cursor.rest <:+ source.text)
    (h : cursor.rest = front ++ rest) :
    Text.bytes source.text - Text.bytes rest =
      Text.bytes source.text - Text.bytes cursor.rest + Text.bytes front := by
  obtain ⟨before, hbefore⟩ := hcursor
  rw [offset_eq hbefore.symm, ← Text.bytes_append]
  exact offset_eq (by rw [← hbefore, h, List.append_assoc])

theorem agrees_skipName :
    Agrees source depth cursor (source.skipWhile isNameChar Char.utf8Size)
      (.ok ((), { cursor with rest := (takeName cursor.rest).2 })) :=
  agrees_skipWhile fun _ _ => rfl

theorem agrees_name_of_nil (h : (takeName cursor.rest).1 = []) :
    Agrees source depth cursor source.name (fail .nameExpected (takeName cursor.rest).2) := by
  refine .assume fun hcursor => .step agrees_offset (.step agrees_skipName
    (.step agrees_offset ?_))
  have hoffset := offset_append hcursor (takeName_append cursor.rest).symm
  rw [h, Text.bytes, Nat.add_zero] at hoffset
  rw [if_pos hoffset]
  exact agrees_fault _

theorem agrees_name_of_ne_nil (h : (takeName cursor.rest).1 ≠ []) :
    Agrees source depth cursor source.name
      (.ok ((takeName cursor.rest).1, { cursor with rest := (takeName cursor.rest).2 })) := by
  refine .assume fun hcursor => .step agrees_offset (.step agrees_skipName
    (.step agrees_offset ?_))
  have hoffset := offset_append hcursor (takeName_append cursor.rest).symm
  have hpos := Text.bytes_pos h
  have hne : ¬Text.bytes source.text - Text.bytes (takeName cursor.rest).2 =
      Text.bytes source.text - Text.bytes cursor.rest := by omega
  rw [if_neg hne]
  exact agrees_taken hcursor (takeName_append cursor.rest).symm

/-! ## Literals -/

theorem agrees_skipDigits :
    Agrees source depth cursor source.skipDigits
      (.ok ((), { cursor with rest := (Decimal.takeDigits cursor.rest).2 })) :=
  agrees_skipWhile fun _ hc => (Text.utf8Size_of_isDigit hc).symm

/-- What follows the fraction at the front of a text, if there is one. -/
def afterFraction : List Char → List Char
  | '.' :: tail =>
    if (Decimal.takeDigits tail).1.isEmpty then '.' :: tail else (Decimal.takeDigits tail).2
  | cs => cs

theorem agrees_skipFraction :
    Agrees source depth cursor source.skipFraction
      (.ok ((), { cursor with rest := afterFraction cursor.rest })) := by
  refine .assume fun ⟨before, hbefore⟩ => .step agrees_peek ?_
  obtain ⟨rest, k⟩ := cursor
  by_cases hpoint : rest.head? = some '.'
  · obtain ⟨tail, rfl⟩ := List.head?_eq_some_iff.1 hpoint
    rw [if_pos hpoint, afterFraction]
    refine .step agrees_offset ?_
    have hnext : Agrees source depth ⟨'.' :: tail, k⟩
        (source.restFrom (Text.bytes source.text - Text.bytes ('.' :: tail) + 1))
        (.ok (tail, ⟨'.' :: tail, k⟩)) := by
      refine fun _ => ⟨?_, .refl _⟩
      have hone : Text.bytes before + 1 = Text.bytes (before ++ ['.']) := by
        rw [Text.bytes_append]
        rfl
      rw [offset_eq hbefore.symm, hone]
      exact restFrom_eq (by rw [← hbefore, List.append_assoc]; rfl) _
    refine hnext.step ?_
    have hdigits : tail.head?.any isDigit = !(Decimal.takeDigits tail).1.isEmpty := by
      rw [Decimal.takeDigits]
      cases tail with
      | nil => rfl
      | cons c cs =>
        cases hc : isDigit c with
        | true => rw [List.takeWhile_cons_of_pos hc]; simpa using hc
        | false => rw [List.takeWhile_cons_of_neg (by simp [hc])]; simpa using hc
    rw [hdigits]
    cases (Decimal.takeDigits tail).1.isEmpty with
    | true => exact agrees_pure _
    | false =>
      exact .step (agrees_pass '.' tail k) agrees_skipDigits
  · have hafter : afterFraction rest = rest := by
      unfold afterFraction
      split
      · exact absurd rfl hpoint
      · rfl
    rw [if_neg hpoint, hafter]
    exact agrees_pure _

theorem ne_point_of_digits {whole : List Char} (h : ∀ c ∈ whole, isDigit c = true) :
    ∀ c ∈ whole, (c != '.') = true := by
  intro c hc
  rw [bne_iff_ne]
  rintro rfl
  exact absurd (h '.' hc) (by decide)

theorem numberOf_append {whole : List Char} (h : ∀ c ∈ whole, isDigit c = true)
    (fraction : List Char) :
    Scan.numberOf (whole ++ '.' :: fraction) = numberLiteral whole fraction := by
  have hpoint := ne_point_of_digits h
  rw [Scan.numberOf, List.takeWhile_append_of_pos hpoint, List.dropWhile_append_of_pos hpoint]
  simp

theorem numberOf_digits {whole : List Char} (h : ∀ c ∈ whole, isDigit c = true) :
    Scan.numberOf whole = numberLiteral whole [] := by
  have hpoint := ne_point_of_digits h
  rw [Scan.numberOf, ← List.append_nil whole, List.takeWhile_append_of_pos hpoint,
    List.dropWhile_append_of_pos hpoint]
  simp

/-- A number is made of the digits in front of what follows it. -/
theorem takeNumber_eq (cs : List Char) :
    (takeNumber cs).2 = afterFraction (Decimal.takeDigits cs).2 ∧
      ∃ front, cs = front ++ (takeNumber cs).2 ∧ Scan.numberOf front = (takeNumber cs).1 := by
  have hcs := Decimal.takeDigits_append cs
  have hwhole : ∀ c ∈ (Decimal.takeDigits cs).1, isDigit c = true :=
    List.all_eq_true.1 List.all_takeWhile
  simp only [takeNumber]
  split
  · rename_i tail hrest
    rw [hrest] at hcs
    rw [hrest, afterFraction]
    split
    · exact ⟨rfl, _, hcs.symm, numberOf_digits hwhole⟩
    · refine ⟨rfl, (Decimal.takeDigits cs).1 ++ '.' :: (Decimal.takeDigits tail).1, ?_,
        numberOf_append hwhole _⟩
      rw [List.append_assoc, List.cons_append, Decimal.takeDigits_append, hcs]
  · rename_i hpoint
    refine ⟨?_, _, hcs.symm, numberOf_digits hwhole⟩
    unfold afterFraction
    split
    · rename_i tail hrest
      exact absurd hrest (hpoint tail)
    · rfl

theorem agrees_number :
    Agrees source depth cursor source.number
      (.ok ((takeNumber cursor.rest).1, { cursor with rest := (takeNumber cursor.rest).2 })) := by
  obtain ⟨hrest, front, hfront, hvalue⟩ := takeNumber_eq cursor.rest
  refine .assume fun hcursor => .step agrees_offset (.step agrees_skipDigits
    (.step agrees_skipFraction ?_))
  rw [← hrest, ← hvalue]
  exact .step (agrees_taken hcursor hfront) (agrees_pure _)

/-- A text in quotes after a front of it, and the place after it. -/
def quotedResult (front : List Char) (operators : Nat) :
    Option (List Char × List Char) → Except Fault (List Char × Cursor)
  | some (back, rest) => .ok (front ++ back, ⟨rest, operators⟩)
  | none => fail .unterminatedText []

theorem quotedResult_map (front more : List Char) (k : Nat)
    (read : Option (List Char × List Char)) :
    quotedResult front k (read.map fun (back, rest) => (more ++ back, rest)) =
      quotedResult (front ++ more) k read := by
  cases read with
  | none => rfl
  | some r => simp only [Option.map_some, quotedResult, List.append_assoc]

/-- The induction follows the reader: a quote, an escape, or another character. -/
theorem agrees_quotedAfter (quote : Char) (front rest : List Char) (k : Nat) :
    Agrees source depth ⟨rest, k⟩ (source.quotedAfter quote front)
      (quotedResult front k (takeQuoted quote rest)) := by
  fun_induction takeQuoted quote rest generalizing front with
  | case1 =>
    rw [Source.quotedAfter.eq_1]
    exact .step agrees_peek (agrees_fault _)
  | case2 cs =>
    rw [Source.quotedAfter.eq_1]
    refine .step agrees_peek (.step (agrees_pass quote cs k) ?_)
    rw [if_pos rfl, quotedResult, List.append_nil]
    exact agrees_pure _
  | case3 hq =>
    rw [Source.quotedAfter.eq_1]
    refine .step agrees_peek (.step (agrees_pass '\\' [] k) ?_)
    rw [if_neg hq, if_pos rfl]
    exact .step agrees_peek (agrees_fault _)
  | case4 d ds hq ih =>
    rw [Source.quotedAfter.eq_1]
    refine .step agrees_peek (.step (agrees_pass '\\' (d :: ds) k) ?_)
    rw [if_neg hq, if_pos rfl, quotedResult_map]
    exact .step agrees_peek (.step (agrees_pass d ds k) (ih _))
  | case5 c cs hq hb ih =>
    rw [Source.quotedAfter.eq_1]
    refine .step agrees_peek (.step (agrees_pass c cs k) ?_)
    rw [if_neg hq, if_neg hb]
    exact quotedResult_map front [c] k (takeQuoted quote cs) ▸ ih _

theorem agrees_quoted (source : Source) (depth : Nat) {quote : Char} (hwidth : quote.utf8Size = 1)
    (tail : List Char) (k : Nat) :
    Agrees source depth ⟨quote :: tail, k⟩ (source.quoted quote)
      (quotedResult [] k (takeQuoted quote tail)) := by
  have hquote : Agrees source depth ⟨quote :: tail, k⟩ (source.advance 1)
      (.ok ((), ⟨tail, k⟩)) := by
    rw [← hwidth]
    exact agrees_pass quote tail k
  exact hquote.step (agrees_quotedAfter quote [] tail k)

end Steps

end DataBinding.Expr
