import MakeOutline.Proofs.LineGrammar
import MakeOutline.Text.Quoted

/-!
# Texts that show where they end

Several elements are written one after the other, and then comes a text at which the
list stops.  If it can be seen from what follows where each element ends, then the
elements and the rest can be read back, so no two lists are written alike.  A quoted
text is such a list of characters.
-/

namespace MakeOutline.Text

/-! ## Lists of elements -/

section

variable {α : Type} {write : α → Text} {admissible : α → Prop} {stop : Text → Prop}

/-- What can stand behind an element: the end of the list or the next element. -/
inductive Follows (write : α → Text) (admissible : α → Prop) (stop : Text → Prop) :
    Text → Prop
  | stop {t : Text} (hstop : stop t) : Follows write admissible stop t
  | element (a : α) (t : Text) (ha : admissible a) : Follows write admissible stop (write a ++ t)

structure SelfDelimiting (write : α → Text) (admissible : α → Prop) (stop : Text → Prop) :
    Prop where
  unique : ∀ {a b s t}, admissible a → admissible b → Follows write admissible stop s →
    Follows write admissible stop t → write a ++ s = write b ++ t → a = b ∧ s = t
  not_stop : ∀ {a} t, admissible a → ¬ stop (write a ++ t)

theorem Follows.flatMap_append {elements : List α} {t : Text}
    (hadmissible : ∀ a ∈ elements, admissible a) (hstop : stop t) :
    Follows write admissible stop (elements.flatMap write ++ t) := by
  cases elements with
  | nil => exact .stop hstop
  | cons a elements =>
      rw [List.flatMap_cons, List.append_assoc]
      exact .element a _ (hadmissible a List.mem_cons_self)

/-- The list that is written out can be read back, whatever comes after its stop. -/
theorem SelfDelimiting.flatMap_append_inj (hwrite : SelfDelimiting write admissible stop)
    {first second : List α} {s t : Text} (hfirst : ∀ a ∈ first, admissible a)
    (hsecond : ∀ a ∈ second, admissible a) (hs : stop s) (ht : stop t)
    (heq : first.flatMap write ++ s = second.flatMap write ++ t) : first = second ∧ s = t := by
  induction first generalizing second with
  | nil =>
      cases second with
      | nil => exact ⟨rfl, heq⟩
      | cons b second =>
          rw [List.flatMap_nil, List.nil_append, List.flatMap_cons, List.append_assoc] at heq
          rw [heq] at hs
          exact absurd hs (hwrite.not_stop _ (hsecond b List.mem_cons_self))
  | cons a first ih =>
      have ha := hfirst a List.mem_cons_self
      have hfirst' : ∀ a ∈ first, admissible a :=
        fun other hother => hfirst other (List.mem_cons_of_mem a hother)
      cases second with
      | nil =>
          rw [List.flatMap_nil, List.nil_append, List.flatMap_cons, List.append_assoc] at heq
          rw [← heq] at ht
          exact absurd ht (hwrite.not_stop _ ha)
      | cons b second =>
          have hb := hsecond b List.mem_cons_self
          have hsecond' : ∀ a ∈ second, admissible a :=
            fun other hother => hsecond other (List.mem_cons_of_mem b hother)
          rw [List.flatMap_cons, List.flatMap_cons, List.append_assoc, List.append_assoc] at heq
          obtain ⟨rfl, hrest⟩ :=
            hwrite.unique ha hb (.flatMap_append hfirst' hs) (.flatMap_append hsecond' ht) heq
          obtain ⟨rfl, hst⟩ := ih hfirst' hsecond' hrest
          exact ⟨rfl, hst⟩

theorem append_joinedBy (separator : Text) {parts : List Text} (hne : parts ≠ []) :
    separator ++ joinedBy separator parts = parts.flatMap (separator ++ ·) := by
  unfold joinedBy
  induction parts with
  | nil => contradiction
  | cons first others ih =>
      cases others with
      | nil => simp
      | cons second rest =>
          rw [List.intercalate_cons_cons, List.flatMap_cons, ← ih (List.cons_ne_nil second rest)]
          simp only [List.append_assoc]

/-- A list that is written with separators between its elements can be read back if it has
an element, each element together with the separator in front of it. -/
theorem SelfDelimiting.joinedBy_append_inj {separator : Text}
    (hwrite : SelfDelimiting (separator ++ write ·) admissible stop) {first second : List α}
    {s t : Text} (hne : first ≠ []) (hne' : second ≠ []) (hfirst : ∀ a ∈ first, admissible a)
    (hsecond : ∀ a ∈ second, admissible a) (hs : stop s) (ht : stop t)
    (heq : joinedBy separator (first.map write) ++ s =
      joinedBy separator (second.map write) ++ t) : first = second ∧ s = t := by
  have hjoined := congrArg (separator ++ ·) heq
  simp only [← List.append_assoc] at hjoined
  rw [append_joinedBy separator (by simpa using hne),
    append_joinedBy separator (by simpa using hne'), List.flatMap_map, List.flatMap_map] at hjoined
  exact hwrite.flatMap_append_inj hfirst hsecond hs ht hjoined

end

/-- Two texts made of characters of one kind, and behind each of them the text ends or
goes on with a character of another kind. -/
theorem append_inj_of_head? {p : Char → Bool} {s t rest rest' : Text}
    (hs : ∀ c ∈ s, p c = true) (ht : ∀ c ∈ t, p c = true)
    (hrest : ∀ c, rest.head? = some c → p c = false)
    (hrest' : ∀ c, rest'.head? = some c → p c = false) (heq : s ++ rest = t ++ rest') :
    s = t ∧ rest = rest' := by
  have hst : s = t := by
    rw [← takeWhile_append_of_head? hs hrest, heq, takeWhile_append_of_head? ht hrest']
  have hrests : rest = rest' := by
    rw [← dropWhile_append_of_head? hs hrest, heq, dropWhile_append_of_head? ht hrest']
  exact ⟨hst, hrests⟩

/-! ## Code points -/

theorem digitChar_inj {m n : Nat} (hm : m < 16) (hn : n < 16)
    (heq : m.digitChar = n.digitChar) : m = n := by
  have hall : ∀ m : Fin 16, ∀ n : Fin 16, m.val.digitChar = n.val.digitChar → m = n := by
    decide
  have hfin := hall ⟨m, hm⟩ ⟨n, hn⟩ heq
  exact congrArg Fin.val hfin

theorem toDigits_injective {m n : Nat} (heq : Nat.toDigits 16 m = Nat.toDigits 16 n) :
    m = n := by
  induction m using Nat.strongRecOn generalizing n with
  | ind m ih =>
      have hm : Nat.toDigits 16 m = _ := Nat.toDigits_eq_if (by decide)
      have hn : Nat.toDigits 16 n = _ := Nat.toDigits_eq_if (by decide)
      have hlength : ∀ k, (Nat.toDigits 16 k).length ≤ 1 ↔ k < 16 := by
        intro k
        simpa using Nat.length_toDigits_le_iff (b := 16) (n := k) (k := 1) (by decide) (by decide)
      have hsame : m < 16 ↔ n < 16 := by
        rw [← hlength, heq, hlength]
      rw [hm, hn] at heq
      by_cases hlt : m < 16
      · have hlt' := hsame.mp hlt
        rw [if_pos hlt, if_pos hlt', List.singleton_inj] at heq
        exact digitChar_inj hlt hlt' heq
      · have hge : ¬ n < 16 := fun hlt' => hlt (hsame.mpr hlt')
        rw [if_neg hlt, if_neg hge] at heq
        obtain ⟨hinit, hlast⟩ := List.append_inj' heq rfl
        have hdiv : m / 16 = n / 16 := ih (m / 16) (by omega) hinit
        have hmod : m % 16 = n % 16 :=
          digitChar_inj (by omega) (by omega) (List.singleton_inj.mp hlast)
        omega

theorem ne_brace_of_mem_toDigits {n : Nat} {c : Char} (hc : c ∈ Nat.toDigits 16 n) :
    c ≠ '}' := by
  induction n using Nat.strongRecOn with
  | ind n ih =>
      have hn : Nat.toDigits 16 n = _ := Nat.toDigits_eq_if (by decide)
      have hdigit : ∀ k, Nat.digitChar k ≠ '}' := fun k => Nat.digitChar_ne '}' (by decide)
      rw [hn] at hc
      split at hc
      · rw [List.mem_singleton.mp hc]
        exact hdigit n
      · rcases List.mem_append.mp hc with hinit | hlast
        · exact ih (n / 16) (by omega) hinit
        · rw [List.mem_singleton.mp hlast]
          exact hdigit (n % 16)

/-! ## Quoted texts -/

/-- The characters that are written with a backslash and one character. -/
def shortEscapes : List (Char × Char) :=
  [('"', '"'), ('\\', '\\'), ('\n', 'n'), ('\r', 'r'), ('\t', 't'), ('\x00', '0')]

inductive QuotedAs : Char → Text → Prop
  | short {c escape : Char} (hescape : (c, escape) ∈ shortEscapes) : QuotedAs c ['\\', escape]
  | codePoint (c : Char) : QuotedAs c (escapedCodePoint c)
  | plain {c : Char} (hquote : c ≠ '"') (hbackslash : c ≠ '\\') : QuotedAs c [c]

theorem quotedAs_quotedChar (c : Char) : QuotedAs c (quotedChar c) := by
  unfold quotedChar
  split
  case h_7 hquote hbackslash _ _ _ _ =>
    split
    · exact .codePoint c
    · exact .plain hquote hbackslash
  all_goals exact .short (by decide)

namespace QuotedAs

variable {a b : Char} {u v s t : Text}

theorem eq_of_short {escape : Char} (ha : (a, escape) ∈ shortEscapes)
    (hb : (b, escape) ∈ shortEscapes) : a = b := by
  have hall : ∀ x ∈ shortEscapes, ∀ y ∈ shortEscapes, x.2 = y.2 → x.1 = y.1 := by decide
  exact hall _ ha _ hb rfl

theorem escapedCodePoint_append_inj
    (heq : escapedCodePoint a ++ s = escapedCodePoint b ++ t) : a = b ∧ s = t := by
  have hdigits : ∀ c : Char, ∀ d ∈ Nat.toDigits 16 c.toNat, (d != '}') = true := by
    intro c d hd
    simpa using ne_brace_of_mem_toDigits hd
  have hbrace : ∀ rest : Text, ∀ c, ('}' :: rest).head? = some c → (c != '}') = false := by
    rintro rest c ⟨rfl⟩
    decide
  have hcut : Nat.toDigits 16 a.toNat ++ '}' :: s = Nat.toDigits 16 b.toNat ++ '}' :: t := by
    simpa [escapedCodePoint] using heq
  obtain ⟨hcodes, hrest⟩ :=
    append_inj_of_head? (hdigits a) (hdigits b) (hbrace s) (hbrace t) hcut
  exact ⟨Char.toNat_inj.mp (toDigits_injective hcodes), (List.cons.inj hrest).2⟩

/-- A quoted character needs nothing behind it to show where it ends. -/
theorem append_inj (ha : QuotedAs a u) (hb : QuotedAs b v) (heq : u ++ s = v ++ t) :
    a = b ∧ s = t := by
  have hlong : ∀ c, (c, 'u') ∉ shortEscapes := by
    intro c hc
    have hall : ∀ x ∈ shortEscapes, x.2 ≠ 'u' := by decide
    exact hall _ hc rfl
  cases ha with
  | short hescape =>
      cases hb with
      | short hescape' =>
          simp only [List.cons_append, List.nil_append, List.cons.injEq, true_and] at heq
          obtain ⟨rfl, hst⟩ := heq
          exact ⟨eq_of_short hescape hescape', hst⟩
      | codePoint =>
          simp only [escapedCodePoint, List.cons_append, List.nil_append, List.cons.injEq] at heq
          rw [heq.2.1] at hescape
          exact absurd hescape (hlong a)
      | plain hquote hbackslash =>
          exact absurd (List.cons.inj heq).1.symm hbackslash
  | codePoint =>
      cases hb with
      | short hescape =>
          simp only [escapedCodePoint, List.cons_append, List.nil_append, List.cons.injEq] at heq
          rw [← heq.2.1] at hescape
          exact absurd hescape (hlong b)
      | codePoint => exact escapedCodePoint_append_inj heq
      | plain hquote hbackslash =>
          exact absurd (List.cons.inj heq).1.symm hbackslash
  | plain hquote hbackslash =>
      cases hb with
      | short hescape => exact absurd (List.cons.inj heq).1 hbackslash
      | codePoint => exact absurd (List.cons.inj heq).1 hbackslash
      | plain hquote' hbackslash' => simpa using heq

theorem head?_append_ne (ha : QuotedAs a u) : (u ++ s).head? ≠ some '"' := by
  cases ha with
  | short hescape => simp
  | codePoint => simp [escapedCodePoint]
  | plain hquote hbackslash => simpa using hquote

end QuotedAs

theorem selfDelimiting_quotedChar :
    SelfDelimiting quotedChar (fun _ => True) (·.head? = some '"') := by
  constructor
  · intro a b s t _ _ _ _ heq
    exact (quotedAs_quotedChar a).append_inj (quotedAs_quotedChar b) heq
  · intro a t _
    exact (quotedAs_quotedChar a).head?_append_ne

/-- A quoted text shows where it ends, whatever is in it and whatever comes after it. -/
theorem quoted_append_inj {u v s t : Text} (heq : quoted u ++ s = quoted v ++ t) :
    u = v ∧ s = t := by
  have hinner : u.flatMap quotedChar ++ '"' :: s = v.flatMap quotedChar ++ '"' :: t := by
    simpa [quoted] using heq
  obtain ⟨huv, hrest⟩ := selfDelimiting_quotedChar.flatMap_append_inj
    (fun _ _ => trivial) (fun _ _ => trivial) rfl rfl hinner
  exact ⟨huv, (List.cons.inj hrest).2⟩

end MakeOutline.Text
