import Expensea.Domain.Text
import Expensea.Lib.Regex

namespace Expensea.Agent

open Regex

/-!
# Routing

`app/agent/routing.py`: which read tool answers a question.  The tools answer for fixed periods, so
a question that names another one must not reach them.

* `route` — the guard on periods, then the intents in order;
* `removeAll_keeps` — what taking `last month` out of a text leaves of the periods it names;
* `route_stays_fixed_iff` — the questions that name a period and are answered for no other;
* `chosenTool_of_period` — and the language model is not asked about them.
-/

/-- `ToolName` -/
inductive ToolName where
  | summary
  | transactions
  | compare
  | receivables
  | relationship
  | recurring
  | transaction
  | unsupported
  deriving DecidableEq, Repr

/-- The classes of the characters beyond ASCII that `re` looks up. -/
structure ReTables where
  /-- The decimal digits. -/
  digit : CodePoint → Bool
  /-- The other letters and numbers. -/
  alnum : CodePoint → Bool

/-- ASCII word characters, and the letters that equal an ASCII letter ignoring case. -/
def isKnownWord (c : CodePoint) : Bool :=
  (0x30 ≤ c.val && c.val ≤ 0x39) || (0x41 ≤ c.val && c.val ≤ 0x5A) || c.val == 0x5F ||
    (0x61 ≤ c.val && c.val ≤ 0x7A) || c.val == 0x130 || c.val == 0x131 || c.val == 0x17F ||
    c.val == 0x212A

/-- `\w` -/
def isWord (T : ReTables) (c : CodePoint) : Bool :=
  isKnownWord c || (0x80 ≤ c.val && (T.digit c || T.alnum c))

/-- `\d` -/
def isDecimal (T : ReTables) (c : CodePoint) : Bool :=
  (0x30 ≤ c.val && c.val ≤ 0x39) || (0x80 ≤ c.val && T.digit c)

/-- A literal character. -/
def exactly (u c : CodePoint) : Bool := u == c

/-- `[a-z]` -/
def isLower (u : CodePoint) : Bool := 0x61 ≤ u.val && u.val ≤ 0x7A

/-- A literal character with `re.IGNORECASE`. -/
def ignoringCase (u c : CodePoint) : Bool :=
  u == c || (isLower u && (c.val + 0x20 == u.val ||
    (u.val == 0x69 && (c.val == 0x130 || c.val == 0x131)) ||
    (u.val == 0x73 && c.val == 0x17F) || (u.val == 0x6B && c.val == 0x212A)))

/-- `\b(…|…)\b` -/
def anyWord (same : CodePoint → CodePoint → Bool) (phrases : List PyStr) : Regex CodePoint :=
  seq boundary (seq (alts (phrases.map fun s => chars (s.map same))) boundary)

/-! ### Patterns -/

/-- `last month` -/
def LAST_MONTH : PyStr := py "last month"

/-- The other phrases of `_UNSUPPORTED_PERIOD`. -/
def OTHER_PHRASES : List PyStr :=
  [py "yesterday", py "today", py "last week", py "last year", py "this year", py "january",
    py "february", py "march", py "april", py "may", py "june", py "july", py "august",
    py "september", py "october", py "november", py "december"]

/-- After a boundary, four digits, a dash or a slash, and one or two digits. -/
def dashedMonth (T : ReTables) : Regex CodePoint :=
  seq boundary (seq (chars (List.replicate 4 (isDecimal T)))
    (seq (sym fun c => c == 0x2D || c == 0x2F) (seq (sym (isDecimal T)) (upTo (isDecimal T) 1))))

/-- `\b20\d{2}\b` -/
def yearNumber (T : ReTables) : Regex CodePoint :=
  seq boundary (seq (chars [exactly 0x32, exactly 0x30, isDecimal T, isDecimal T]) boundary)

/-- `_UNSUPPORTED_PERIOD` -/
def UNSUPPORTED_PERIOD (T : ReTables) : Regex CodePoint :=
  alt (anyWord ignoringCase (LAST_MONTH :: OTHER_PHRASES)) (alt (dashedMonth T) (yearNumber T))

/-- A pattern is found: `pattern.search(text) is not None`. -/
def found (T : ReTables) (pattern : Regex CodePoint) (text : PyStr) : Bool :=
  search (isWord T) pattern text

/-- `_DENIED` -/
def DENIED : Regex CodePoint :=
  anyWord ignoringCase [py "delete", py "update", py "insert", py "drop", py "execute",
    py "transfer", py "send", py "pay", py "settle", py "cancel", py "approve", py "create",
    py "write", py "ignore", py "override", py "system", py "prompt", py "sql", py "http",
    py "https", py "another", py "other user", py "all users", py "owner_id", py "user_id"]

/-- `blocked` -/
def blocked (T : ReTables) (question : PyStr) : Bool := found T DENIED question

def COMPARISON : Regex CodePoint :=
  anyWord exactly [py "why", py "compare", py "more", py "less", py "changed", py "difference"]

def RELATIONSHIP : Regex CodePoint := anyWord exactly [py "relationship", py "person"]

def DETAIL : Regex CodePoint := anyWord exactly [py "detail", py "evidence"]

def RECURRING : Regex CodePoint :=
  anyWord exactly [py "recurring", py "subscription", py "upcoming"]

def RECEIVABLES : Regex CodePoint :=
  anyWord exactly [py "receivable", py "receivables", py "owed", py "owes"]

def COMPARED : Regex CodePoint :=
  anyWord exactly [py "spend", py "spent", py "spending", py "month", py "periods"]

def TRANSACTIONS : Regex CodePoint := anyWord exactly [py "transactions", py "activity"]

def SUMMARY : Regex CodePoint :=
  anyWord exactly [py "summary", py "spent", py "spend", py "spending", py "income", py "balance"]

/-! ### Routes -/

/-- Leave out so many characters, then every occurrence of a pattern. -/
def removeFrom (pattern : PyStr) : Nat → PyStr → PyStr
  | _, [] => []
  | n + 1, _ :: s => removeFrom pattern n s
  | 0, c :: s =>
    if pattern.isPrefixOf (c :: s) then removeFrom pattern (pattern.length - 1) s
    else c :: removeFrom pattern 0 s

/-- `text.replace(pattern, "")` -/
def removeAll (pattern text : PyStr) : PyStr := removeFrom pattern 0 text

section Route

variable (T : ReTables) (U : Unicode)

/-- The exception of the guard: a comparison with last month that names no other period. -/
def exempt (text : PyStr) : Bool :=
  found T COMPARISON text && contains LAST_MONTH text &&
    !found T (UNSUPPORTED_PERIOD T) (removeAll LAST_MONTH text)

/-- The intents, in order. -/
def intent (text : PyStr) : ToolName :=
  if found T RELATIONSHIP text then .relationship
  else if found T DETAIL text && contains (py "transaction") text then .transaction
  else if found T RECURRING text then .recurring
  else if found T RECEIVABLES text then .receivables
  else if found T COMPARISON text && found T COMPARED text then .compare
  else if found T TRANSACTIONS text then .transactions
  else if found T SUMMARY text then .summary
  else .unsupported

/-- `route` -/
def route (question : PyStr) : ToolName :=
  let text := U.casefold question
  if found T (UNSUPPORTED_PERIOD T) text && !exempt T text then .unsupported else intent T text

/-- `unsupported_period` -/
def unsupportedPeriod (question : PyStr) : Bool :=
  found T (UNSUPPORTED_PERIOD T) question && route T U question == .unsupported

/-- The tool `FinanceAgentService._run` decides on.  `choose` is what the language model picks. -/
def chosenTool (choose : PyStr → ToolName) (question : PyStr) : ToolName :=
  if blocked T question then .unsupported
  else if route T U question == .unsupported && !unsupportedPeriod T U question then choose question
  else route T U question

/-! ### The periods a question names -/

/-- The pattern is found in the question as it is written, or as `route` reads it. -/
def Names (pattern : Regex CodePoint) (question : PyStr) : Prop :=
  found T pattern question = true ∨ found T pattern (U.casefold question) = true

/-- `_UNSUPPORTED_PERIOD` without `last month`. -/
def otherPeriod : Regex CodePoint :=
  alt (anyWord ignoringCase OTHER_PHRASES) (alt (dashedMonth T) (yearNumber T))

/-- The phrase `last month`. -/
def lastMonth : Regex CodePoint := anyWord ignoringCase [LAST_MONTH]

/-- The question is not answered for another period than it names: it is unsupported, or it
    compares with last month, names no other period, and is answered by the comparison. -/
def StaysFixed (question : PyStr) : Prop :=
  route T U question = .unsupported ∨
    route T U question = .compare ∧ found T COMPARISON (U.casefold question) = true ∧
      Names T U lastMonth question ∧ ¬ Names T U (otherPeriod T) question

/-- An intent that is tried before the comparison occurs. -/
def earlierIntent (text : PyStr) : Bool :=
  found T RELATIONSHIP text || found T DETAIL text && contains (py "transaction") text ||
    found T RECURRING text || found T RECEIVABLES text

/-- Where the guard sees the period, it does not make an exception, or no intent before the
    comparison occurs and the question as written names no other period.  Where case folding hides
    the period, no intent occurs but a comparison with last month. -/
def Answerable (question : PyStr) : Prop :=
  let text := U.casefold question
  if found T (UNSUPPORTED_PERIOD T) text then
    exempt T text = false ∨
      earlierIntent T text = false ∧ found T (otherPeriod T) question = false
  else earlierIntent T text = false ∧
    if found T COMPARISON text && found T COMPARED text then
      found T (otherPeriod T) question = false
    else found T TRANSACTIONS text = false ∧ found T SUMMARY text = false

end Route

/-! ### Characters -/

section Characters

variable {T : ReTables}

theorem isWord_of_known {c : CodePoint} (h : isKnownWord c = true) : isWord T c = true := by
  rw [isWord, h, Bool.true_or]

/-- What equals a letter ignoring case is part of a word. -/
theorem isWord_of_ignoringCase {u c : CodePoint} (hu : isLower u = true)
    (h : ignoringCase u c = true) : isWord T c = true := by
  apply isWord_of_known
  simp only [isLower, ignoringCase, isKnownWord, Bool.or_eq_true, Bool.and_eq_true, beq_iff_eq,
    decide_eq_true_eq, Fin.ext_iff] at hu h ⊢
  omega

theorem isWord_of_isDecimal {c : CodePoint} (h : isDecimal T c = true) : isWord T c = true := by
  simp only [isDecimal, isWord, isKnownWord, Bool.or_eq_true, Bool.and_eq_true,
    decide_eq_true_eq] at h ⊢
  rcases h with h | h
  · exact .inl (by simp [h])
  · exact .inr ⟨h.1, .inl h.2⟩

end Characters

/-! ### What is left when `last month` is taken out -/

section Remove

variable {T : ReTables}

/-- A text that no occurrence starts in is kept. -/
theorem removeFrom_keeps {pattern w rest : PyStr}
    (h : ∀ v, v <:+ w → v ≠ [] → ¬ pattern <+: v ++ rest) :
    removeFrom pattern 0 (w ++ rest) = w ++ removeFrom pattern 0 rest := by
  induction w with
  | nil => rfl
  | cons c w ih =>
    have hhere := h (c :: w) List.suffix_rfl (List.cons_ne_nil _ _)
    rw [List.cons_append, removeFrom, if_neg (by rwa [List.isPrefixOf_iff_prefix])]
    rw [ih fun v hv hne => h v (hv.trans (List.suffix_cons c w)) hne]
    rfl

/-- An occurrence from a character on. -/
theorem drop_lastMonth {n : Nat} (hn : n < 10) {c : CodePoint} {s : PyStr}
    (h : LAST_MONTH.drop n <+: c :: s) : LAST_MONTH[n]? = some c ∧ LAST_MONTH.drop (n + 1) <+: s := by
  have hlen : n < LAST_MONTH.length := hn
  rw [List.drop_eq_getElem_cons hlen] at h
  obtain ⟨hhead, htail⟩ := List.cons_prefix_cons.1 h
  exact ⟨by rw [List.getElem?_eq_getElem hlen, hhead], htail⟩

/-- Of an occurrence only the space is no part of a word. -/
theorem eq_four_of_not_word {n : Nat} {c : CodePoint} (hget : LAST_MONTH[n]? = some c)
    (hc : isWord T c = false) : n = 4 := by
  have hknown : ∀ n < 10, n = 4 ∨ (LAST_MONTH[n]?.any isKnownWord) = true := by
    decide +kernel
  have hn : n < 10 := (List.getElem?_eq_some_iff.1 hget).1
  rcases hknown n hn with h | h
  · exact h
  · rw [hget] at h
    rw [isWord_of_known h] at hc
    cases hc

/-- A character that is no part of a word is kept, unless it is the space of an occurrence. -/
theorem removeFrom_before {c : CodePoint} {rest : PyStr} (hc : isWord T c = false)
    (hrest : ¬ py "month" <+: rest) (l : PyStr) : ∀ k ≤ 9,
    LAST_MONTH.drop (10 - k) <+: l ++ c :: rest →
    ∃ out, removeFrom LAST_MONTH k (l ++ c :: rest) = out ++ c :: removeFrom LAST_MONTH 0 rest := by
  induction l with
  | nil =>
    intro k hk hskip
    rw [List.nil_append] at hskip ⊢
    cases k with
    | zero =>
      refine ⟨[], ?_⟩
      rw [removeFrom, if_neg]
      · rfl
      · intro hprefix
        rw [List.isPrefixOf_iff_prefix] at hprefix
        have hfour := eq_four_of_not_word (drop_lastMonth (show 0 < 10 by decide) hprefix).1 hc
        cases hfour
    | succ k =>
      obtain ⟨hget, htail⟩ := drop_lastMonth (by omega) hskip
      rw [eq_four_of_not_word hget hc] at htail
      exact absurd htail hrest
  | cons d l ih =>
    intro k hk hskip
    rw [List.cons_append] at hskip ⊢
    cases k with
    | zero =>
      by_cases hprefix : LAST_MONTH <+: d :: (l ++ c :: rest)
      · rw [removeFrom, if_pos (by rwa [List.isPrefixOf_iff_prefix])]
        exact ih 9 (Nat.le_refl _) (drop_lastMonth (show 0 < 10 by decide) hprefix).2
      · rw [removeFrom, if_neg (by rwa [List.isPrefixOf_iff_prefix])]
        obtain ⟨out, hout⟩ := ih 0 (Nat.zero_le _) List.nil_prefix
        exact ⟨d :: out, by rw [hout]; rfl⟩
    | succ k =>
      rw [removeFrom]
      have htail := (drop_lastMonth (by omega) hskip).2
      rw [show 10 - (k + 1) + 1 = 10 - k by omega] at htail
      exact ih k (by omega) htail

/-- A piece of text that begins a word, and that no occurrence overlaps, stays with the characters
    before and behind it. -/
theorem removeAll_keeps {l w rest : PyStr}
    (hbefore : l.getLast?.any (isWord T) = false) (hmonth : ¬ py "month" <+: w ++ rest)
    (hclear : ∀ v, v <:+ w → v ≠ [] → ¬ LAST_MONTH <+: v ++ rest) :
    ∃ l', removeAll LAST_MONTH (l ++ w ++ rest) = l' ++ w ++ removeFrom LAST_MONTH 0 rest ∧
      l'.getLast? = l.getLast? := by
  have hkeep := removeFrom_keeps hclear
  rw [removeAll, List.append_assoc]
  rcases List.eq_nil_or_concat l with rfl | ⟨l, c, rfl⟩
  · exact ⟨[], by rw [List.nil_append, hkeep]; rfl, rfl⟩
  · rw [List.concat_eq_append] at hbefore ⊢
    rw [List.getLast?_concat] at hbefore
    obtain ⟨out, hout⟩ := removeFrom_before hbefore hmonth l 0 (Nat.zero_le _) List.nil_prefix
    refine ⟨out ++ [c], ?_, by rw [List.getLast?_concat, List.getLast?_concat]⟩
    rw [List.append_assoc, List.singleton_append, hout, hkeep, List.append_assoc, List.append_assoc,
      List.singleton_append]

/-- What follows a word is kept. -/
theorem head?_removeFrom {rest : PyStr} (h : rest.head?.any (isWord T) = false) :
    (removeFrom LAST_MONTH 0 rest).head? = rest.head? := by
  cases rest with
  | nil => rfl
  | cons c rest =>
    rw [removeFrom, if_neg]
    · rfl
    · intro hprefix
      rw [List.isPrefixOf_iff_prefix] at hprefix
      have hfour := eq_four_of_not_word (drop_lastMonth (show 0 < 10 by decide) hprefix).1 h
      cases hfour

end Remove

/-! ### Phrases -/

/-- The rest of a phrase is not the start of what is left of an occurrence: some character differs,
    or the phrase ends before a letter. -/
def conflicts : PyStr → PyStr → Bool
  | _, [] => false
  | [], m :: _ => isKnownWord m
  | u :: s, m :: ms => !ignoringCase u m || conflicts s ms

/-- A phrase that begins and ends with a letter, and that no occurrence of `last month` overlaps but
    one that starts with it. -/
def isAlone (s : PyStr) : Bool :=
  s.head?.any isLower && s.getLast?.any isLower && conflicts s (py "month") &&
    s.tails.tail.all fun t => t == [] || conflicts t LAST_MONTH

theorem phrases_alone : (LAST_MONTH :: OTHER_PHRASES).all isAlone = true := by
  decide +kernel

theorem otherPhrases_conflict : (OTHER_PHRASES.all fun s => conflicts s LAST_MONTH) = true := by
  decide +kernel

section Phrases

variable {T : ReTables}

theorem not_prefix_of_conflicts {rest : PyStr} (hrest : rest.head?.any (isWord T) = false)
    {s v : PyStr} (hv : List.Forall₂ (fun u c => ignoringCase u c = true) s v) :
    ∀ {ms : PyStr}, conflicts s ms = true → ¬ ms <+: v ++ rest := by
  induction hv with
  | nil =>
    intro ms h hprefix
    cases ms with
    | nil => cases h
    | cons m ms =>
      obtain ⟨t, ht⟩ := hprefix
      rw [List.nil_append] at ht
      rw [← ht, List.cons_append, List.head?_cons, Option.any_some, isWord_of_known h] at hrest
      cases hrest
  | @cons u c s v huc _ ih =>
    intro ms h hprefix
    cases ms with
    | nil => cases h
    | cons m ms =>
      obtain ⟨rfl, htail⟩ := List.cons_prefix_cons.1 hprefix
      rw [conflicts, huc, Bool.not_true, Bool.false_or] at h
      exact ih h htail

/-- The last characters of a phrase and of its match correspond. -/
theorem getLast?_of_forall₂ {R : CodePoint → CodePoint → Prop} {s w : PyStr}
    (h : List.Forall₂ R s w) : ∀ {u : CodePoint}, s.getLast? = some u →
    ∃ c, w.getLast? = some c ∧ R u c := by
  induction h with
  | nil =>
    intro u hu
    cases hu
  | @cons u' c' s w huc hsw ih =>
    intro u hu
    cases hsw with
    | nil =>
      rw [List.getLast?_singleton, Option.some.injEq] at hu
      exact ⟨c', rfl, hu ▸ huc⟩
    | cons _ _ =>
      rw [List.getLast?_cons_cons] at hu ⊢
      exact ih hu

variable {s l w rest : PyStr}

/-- A match of a phrase between boundaries begins and ends a word. -/
theorem alone_of_boundaries (hfirst : s.head?.any isLower = true) (hlast : s.getLast?.any isLower = true)
    (hw : List.Forall₂ (fun u c => ignoringCase u c = true) s w)
    (hbefore : isBoundary (isWord T) l.getLast? (w ++ rest).head? = true)
    (hafter : isBoundary (isWord T) (lastOr l.getLast? w) rest.head? = true) :
    w ≠ [] ∧ l.getLast?.any (isWord T) = false ∧ rest.head?.any (isWord T) = false := by
  obtain ⟨u, hu, hlower⟩ := (Option.any_eq_true _ _).1 hlast
  obtain ⟨c, hc, huc⟩ := getLast?_of_forall₂ hw hu
  rw [lastOr, hc, Option.some_or] at hafter
  cases hw with
  | nil => cases hfirst
  | cons huc' _ =>
    rw [List.cons_append] at hbefore
    exact ⟨List.cons_ne_nil _ _, any_before (isWord_of_ignoringCase hfirst huc') hbefore,
      any_after (isWord_of_ignoringCase hlower huc) hafter⟩

/-- A match of a phrase where no occurrence starts is still one when the occurrences are taken
    out. -/
theorem found_removeAll {phrases : List PyStr} (hs : s ∈ phrases) (halone : isAlone s = true)
    (hw : List.Forall₂ (fun u c => ignoringCase u c = true) s w)
    (hbefore : isBoundary (isWord T) l.getLast? (w ++ rest).head? = true)
    (hafter : isBoundary (isWord T) (lastOr l.getLast? w) rest.head? = true)
    (hstart : ¬ LAST_MONTH <+: w ++ rest) :
    found T (anyWord ignoringCase phrases) (removeAll LAST_MONTH (l ++ w ++ rest)) = true := by
  simp only [isAlone, Bool.and_eq_true] at halone
  obtain ⟨⟨⟨hfirst, hlast⟩, hmonth⟩, htails⟩ := halone
  obtain ⟨hne, hleft, hright⟩ := alone_of_boundaries hfirst hlast hw hbefore hafter
  have hclear : ∀ v, v <:+ w → v ≠ [] → ¬ LAST_MONTH <+: v ++ rest := by
    intro v hv hvne
    rw [List.suffix_iff_eq_drop] at hv
    generalize w.length - v.length = n at hv
    cases n with
    | zero =>
      rw [List.drop_zero] at hv
      rwa [hv]
    | succ n =>
      have htail := List.forall₂_drop (n + 1) hw
      rw [← hv] at htail
      have hmem : s.drop (n + 1) ∈ s.tails.tail := by
        cases s with
        | nil =>
          rw [List.drop_nil] at htail
          cases htail
          exact absurd rfl hvne
        | cons u s =>
          rw [List.tails_cons, List.tail_cons, List.drop_succ_cons, List.mem_tails]
          exact List.drop_suffix n s
      have hconflict := List.all_eq_true.1 htails _ hmem
      rw [Bool.or_eq_true, beq_iff_eq] at hconflict
      rcases hconflict with hempty | hconflict
      · rw [hempty] at htail
        cases htail
        exact absurd rfl hvne
      · exact not_prefix_of_conflicts hright htail hconflict
  obtain ⟨l', hremoved, hlast'⟩ := removeAll_keeps hleft
    (not_prefix_of_conflicts hright hw hmonth) hclear
  have hhead := head?_removeFrom hright
  rw [found, search_iff]
  refine ⟨l', w, removeFrom LAST_MONTH 0 rest, hremoved, ?_⟩
  rw [anyWord, matches_bounded, hlast', hhead, matches_alts]
  refine ⟨?_, ⟨_, List.mem_map_of_mem hs, ?_⟩, hafter⟩
  · rwa [List.head?_append_of_ne_nil _ hne] at hbefore ⊢
  · rw [matches_chars, List.forall₂_map_left_iff]
    exact hw

/-- Where a phrase is found. -/
theorem found_anyWord {same : CodePoint → CodePoint → Bool} {phrases : List PyStr} {text : PyStr} :
    found T (anyWord same phrases) text = true ↔ ∃ s ∈ phrases, ∃ l w rest, text = l ++ w ++ rest ∧
      List.Forall₂ (fun u c => same u c = true) s w ∧
      isBoundary (isWord T) l.getLast? (w ++ rest).head? = true ∧
      isBoundary (isWord T) (lastOr l.getLast? w) rest.head? = true := by
  rw [found, search_iff]
  constructor
  · intro h
    obtain ⟨l, w, rest, htext, hm⟩ := h
    rw [anyWord, matches_bounded, matches_alts] at hm
    obtain ⟨hbefore, ⟨r, hr, hm⟩, hafter⟩ := hm
    obtain ⟨s, hs, rfl⟩ := List.mem_map.1 hr
    rw [matches_chars, List.forall₂_map_left_iff] at hm
    exact ⟨s, hs, l, w, rest, htext, hm, hbefore, hafter⟩
  · intro h
    obtain ⟨s, hs, l, w, rest, htext, hm, hbefore, hafter⟩ := h
    refine ⟨l, w, rest, htext, ?_⟩
    rw [anyWord, matches_bounded, matches_alts]
    refine ⟨hbefore, ⟨_, List.mem_map_of_mem hs, ?_⟩, hafter⟩
    rw [matches_chars, List.forall₂_map_left_iff]
    exact hm

/-- A phrase of another period is not taken out. -/
theorem found_otherPhrase {text : PyStr} (h : found T (anyWord ignoringCase OTHER_PHRASES) text = true) :
    found T (anyWord ignoringCase OTHER_PHRASES) (removeAll LAST_MONTH text) = true := by
  obtain ⟨s, hs, l, w, rest, rfl, hw, hbefore, hafter⟩ := found_anyWord.1 h
  have halone := List.all_eq_true.1 phrases_alone s (List.mem_cons_of_mem _ hs)
  have hconflict := List.all_eq_true.1 otherPhrases_conflict s hs
  have hparts := halone
  simp only [isAlone, Bool.and_eq_true] at hparts
  obtain ⟨-, -, hright⟩ := alone_of_boundaries hparts.1.1.1 hparts.1.1.2 hw hbefore hafter
  exact found_removeAll hs halone hw hbefore hafter (not_prefix_of_conflicts hright hw hconflict)

/-- `last month` is not taken out where it is written in another case. -/
theorem found_lastMonth {text : PyStr} (h : found T lastMonth text = true) :
    found T lastMonth (removeAll LAST_MONTH text) = true ∨
      found T (anyWord exactly [LAST_MONTH]) text = true := by
  obtain ⟨s, hs, l, w, rest, rfl, hw, hbefore, hafter⟩ := found_anyWord.1 h
  rw [List.mem_singleton.1 hs] at hw
  have halone := List.all_eq_true.1 phrases_alone LAST_MONTH List.mem_cons_self
  by_cases hstart : LAST_MONTH <+: w ++ rest
  · -- an occurrence that starts where the match does is the match
    have heq : LAST_MONTH = w := by
      have hlen : LAST_MONTH.length = w.length := hw.length_eq
      exact (List.prefix_of_prefix_length_le hstart (List.prefix_append w rest) hlen.le).eq_of_length
        hlen
    refine .inr (found_anyWord.2 ⟨LAST_MONTH, List.mem_singleton_self _, l, w, rest, rfl, ?_, hbefore,
      hafter⟩)
    rw [← heq, List.forall₂_same]
    exact fun u _ => beq_self_eq_true u
  · exact .inl (found_removeAll (List.mem_singleton_self _) halone hw hbefore hafter hstart)

/-! ### Dates -/

theorem not_decimal_of_letter {c : CodePoint} (h : isLower c = true) : isDecimal T c = false := by
  simp only [isLower, Bool.and_eq_true, decide_eq_true_eq] at h
  rw [← Bool.not_eq_true]
  simp only [isDecimal, Bool.or_eq_true, Bool.and_eq_true, decide_eq_true_eq]
  omega

/-- Numbers with dashes and slashes are kept. -/
theorem removeAll_keeps_number {c : CodePoint} (hc : isDecimal T c = true)
    (hw : ∀ d ∈ w, isDecimal T d = true ∨ (d == 0x2D || d == 0x2F) = true)
    (hbefore : isBoundary (isWord T) l.getLast? (c :: w ++ rest).head? = true) :
    ∃ l', removeAll LAST_MONTH (l ++ c :: w ++ rest) =
      l' ++ c :: w ++ removeFrom LAST_MONTH 0 rest ∧ l'.getLast? = l.getLast? := by
  have hall : ∀ d ∈ c :: w, isDecimal T d = true ∨ (d == 0x2D || d == 0x2F) = true :=
    List.forall_mem_cons.2 ⟨.inl hc, hw⟩
  apply removeAll_keeps (any_before (isWord_of_isDecimal hc) hbefore)
  · intro hprefix
    have hhead : (0x6D : CodePoint) = c := (List.cons_prefix_cons.1 hprefix).1
    rw [← hhead, not_decimal_of_letter (by decide)] at hc
    cases hc
  · intro v hv hne hprefix
    cases v with
    | nil => exact hne rfl
    | cons d v =>
      have hhead : (0x6C : CodePoint) = d := (List.cons_prefix_cons.1 hprefix).1
      have hd := hall d (hv.subset List.mem_cons_self)
      rw [← hhead, not_decimal_of_letter (by decide)] at hd
      rcases hd with hd | hd
      · cases hd
      · exact absurd hd (by decide)

/-- What the dashed month matches behind its boundary. -/
theorem matches_dashedMonth {before : Option CodePoint} :
    Matches (isWord T) (dashedMonth T) before w rest ↔
      isBoundary (isWord T) before (w ++ rest).head? = true ∧ ∃ digits separator d tail,
        w = digits ++ separator :: d :: tail ∧
        (digits.length = 4 ∧ ∀ d ∈ digits, isDecimal T d = true) ∧
        (separator == 0x2D || separator == 0x2F) = true ∧ isDecimal T d = true ∧
        (tail.length ≤ 1 ∧ ∀ d ∈ tail, isDecimal T d = true) := by
  rw [dashedMonth, matches_boundary_seq]
  apply and_congr_right
  intro _
  constructor
  · intro h
    obtain ⟨digits, v, rfl, hdigits, u, v', rfl, ⟨separator, rfl, hseparator⟩, u', tail, rfl,
      ⟨d, rfl, hd⟩, htail⟩ := h
    exact ⟨digits, separator, d, tail, rfl, (matches_replicate _ 4).1 hdigits, hseparator, hd,
      (matches_upTo _ 1).1 htail⟩
  · intro h
    obtain ⟨digits, separator, d, tail, rfl, hdigits, hseparator, hd, htail⟩ := h
    exact ⟨digits, _, rfl, (matches_replicate _ 4).2 hdigits, [separator], _, rfl,
      ⟨separator, rfl, hseparator⟩, [d], tail, rfl, ⟨d, rfl, hd⟩, (matches_upTo _ 1).2 htail⟩

theorem found_dashedMonth {text : PyStr} (h : found T (dashedMonth T) text = true) :
    found T (dashedMonth T) (removeAll LAST_MONTH text) = true := by
  rw [found, search_iff] at h ⊢
  obtain ⟨l, w, rest, rfl, hm⟩ := h
  obtain ⟨hbefore, digits, separator, d, tail, rfl, hdigits, hseparator, hd, htail⟩ :=
    matches_dashedMonth.1 hm
  cases digits with
  | nil => cases hdigits.1
  | cons c digits =>
    obtain ⟨hc, hall⟩ := List.forall_mem_cons.1 hdigits.2
    have hw : ∀ e ∈ digits ++ separator :: d :: tail,
        isDecimal T e = true ∨ (e == 0x2D || e == 0x2F) = true := by
      intro e he
      rw [List.mem_append, List.mem_cons, List.mem_cons] at he
      rcases he with he | rfl | rfl | he
      · exact .inl (hall e he)
      · exact .inr hseparator
      · exact .inl hd
      · exact .inl (htail.2 e he)
    obtain ⟨l', hremoved, hlast⟩ := removeAll_keeps_number hc hw hbefore
    refine ⟨l', _, _, hremoved, matches_dashedMonth.2 ?_⟩
    rw [hlast]
    exact ⟨hbefore, c :: digits, separator, d, tail, rfl, hdigits, hseparator, hd, htail⟩

/-- What the year matches between its boundaries. -/
theorem matches_yearNumber {before : Option CodePoint} :
    Matches (isWord T) (yearNumber T) before w rest ↔
      isBoundary (isWord T) before (w ++ rest).head? = true ∧
      (∃ c d, w = [0x32, 0x30, c, d] ∧ isDecimal T c = true ∧ isDecimal T d = true) ∧
      isBoundary (isWord T) (lastOr before w) rest.head? = true := by
  rw [yearNumber, matches_bounded, matches_chars]
  apply and_congr_right
  intro _
  apply and_congr_left
  intro _
  simp only [List.forall₂_cons_left_iff, List.forall₂_nil_left_iff, exactly, beq_iff_eq]
  constructor
  · intro h
    obtain ⟨_, _, rfl, ⟨_, _, rfl, ⟨c, _, hc, ⟨d, _, hd, rfl, rfl⟩, rfl⟩, rfl⟩, rfl⟩ := h
    exact ⟨c, d, rfl, hc, hd⟩
  · intro h
    obtain ⟨c, d, rfl, hc, hd⟩ := h
    exact ⟨_, _, rfl, ⟨_, _, rfl, ⟨c, _, hc, ⟨d, _, hd, rfl, rfl⟩, rfl⟩, rfl⟩, rfl⟩

theorem found_yearNumber {text : PyStr} (h : found T (yearNumber T) text = true) :
    found T (yearNumber T) (removeAll LAST_MONTH text) = true := by
  rw [found, search_iff] at h ⊢
  obtain ⟨l, w, rest, rfl, hm⟩ := h
  obtain ⟨hbefore, ⟨c, d, rfl, hc, hd⟩, hafter⟩ := matches_yearNumber.1 hm
  have hright := any_after (isWord_of_isDecimal hd) hafter
  have hw : ∀ e ∈ [0x30, c, d], isDecimal T e = true ∨ (e == 0x2D || e == 0x2F) = true :=
    List.forall_mem_cons.2 ⟨.inl rfl, List.forall_mem_cons.2 ⟨.inl hc,
      List.forall_mem_singleton.2 (.inl hd)⟩⟩
  obtain ⟨l', hremoved, hlast⟩ := removeAll_keeps_number (c := 0x32) rfl hw hbefore
  refine ⟨l', _, _, hremoved, matches_yearNumber.2 ⟨?_, ⟨c, d, rfl, hc, hd⟩, ?_⟩⟩
  · rw [hlast]
    exact hbefore
  · rw [head?_removeFrom hright]
    exact hafter

end Phrases

/-! ### The guard -/

section Guard

variable {T : ReTables} {U : Unicode} {text : PyStr}

theorem found_alt {r q : Regex CodePoint} :
    found T (alt r q) text = true ↔ found T r text = true ∨ found T q text = true := by
  rw [found, found, found, search_iff, search_iff, search_iff]
  constructor
  · intro h
    obtain ⟨l, w, rest, htext, hm⟩ := h
    exact hm.imp (fun hm => ⟨l, w, rest, htext, hm⟩) fun hm => ⟨l, w, rest, htext, hm⟩
  · intro h
    rcases h with ⟨l, w, rest, htext, hm⟩ | ⟨l, w, rest, htext, hm⟩
    · exact ⟨l, w, rest, htext, .inl hm⟩
    · exact ⟨l, w, rest, htext, .inr hm⟩

/-- A period is last month or another one. -/
theorem found_period : found T (UNSUPPORTED_PERIOD T) text = true ↔
    found T lastMonth text = true ∨ found T (otherPeriod T) text = true := by
  have hphrases : found T (anyWord ignoringCase (LAST_MONTH :: OTHER_PHRASES)) text = true ↔
      found T lastMonth text = true ∨ found T (anyWord ignoringCase OTHER_PHRASES) text = true := by
    rw [lastMonth, found_anyWord, found_anyWord, found_anyWord, List.exists_mem_cons_iff,
      List.exists_mem_cons_iff]
    simp
  rw [UNSUPPORTED_PERIOD, otherPeriod, found_alt, hphrases, found_alt, found_alt, found_alt, or_assoc]

/-- Another period is not taken out with `last month`. -/
theorem found_otherPeriod (h : found T (otherPeriod T) text = true) :
    found T (otherPeriod T) (removeAll LAST_MONTH text) = true := by
  rw [otherPeriod, found_alt, found_alt] at h ⊢
  exact h.imp found_otherPhrase fun h => h.imp found_dashedMonth found_yearNumber

/-- An exempt text names last month, as it is taken out, and no other period. -/
theorem exempt_names (hseen : found T (UNSUPPORTED_PERIOD T) text = true)
    (h : exempt T text = true) : found T (anyWord exactly [LAST_MONTH]) text = true ∧
      found T (otherPeriod T) text = false := by
  rw [exempt, Bool.and_eq_true, Bool.not_eq_true'] at h
  have hremoved : ¬ (found T lastMonth (removeAll LAST_MONTH text) = true ∨
      found T (otherPeriod T) (removeAll LAST_MONTH text) = true) := by
    rw [← found_period, h.2]
    exact Bool.false_ne_true
  have hother : found T (otherPeriod T) text = false := by
    rw [← Bool.not_eq_true]
    exact fun hother => hremoved (.inr (found_otherPeriod hother))
  rw [found_period, hother] at hseen
  refine ⟨?_, hother⟩
  rcases hseen with hlast | hfalse
  · exact (found_lastMonth hlast).resolve_left fun hlast => hremoved (.inl hlast)
  · cases hfalse

/-- Where `last month` stands the word `month` does. -/
theorem found_compared (h : found T (anyWord exactly [LAST_MONTH]) text = true) :
    found T COMPARED text = true := by
  obtain ⟨s, hs, l, w, rest, rfl, hw, hbefore, hafter⟩ := found_anyWord.1 h
  rw [List.mem_singleton.1 hs] at hw
  have heq : LAST_MONTH = w := by
    rw [← List.forall₂_eq_eq_eq]
    exact hw.imp fun u c huc => beq_iff_eq.1 huc
  rw [COMPARED, found_anyWord]
  refine ⟨py "month", by decide +kernel, l ++ py "last ", py "month", rest, ?_, ?_, ?_, ?_⟩
  · rw [← heq, List.append_assoc l, List.append_assoc l, List.append_assoc l]
    rfl
  · rw [List.forall₂_same]
    exact fun u _ => beq_self_eq_true u
  · rw [List.getLast?_append]
    rfl
  · rw [← heq] at hafter
    exact hafter

theorem found_ignoringCase {phrases : List PyStr} (h : found T (anyWord exactly phrases) text = true) :
    found T (anyWord ignoringCase phrases) text = true := by
  obtain ⟨s, hs, l, w, rest, htext, hw, hbounds⟩ := found_anyWord.1 h
  refine found_anyWord.2 ⟨s, hs, l, w, rest, htext, hw.imp fun u c huc => ?_, hbounds⟩
  rw [exactly] at huc
  rw [ignoringCase, huc, Bool.true_or]

/-- An intent that is tried first decides. -/
theorem intent_of_earlier (h : earlierIntent T text = true) :
    intent T text ≠ .unsupported ∧ intent T text ≠ .compare := by
  simp only [earlierIntent, Bool.or_eq_true] at h
  unfold intent
  by_cases hrelationship : found T RELATIONSHIP text = true
  · rw [if_pos hrelationship]
    decide
  rw [if_neg hrelationship]
  by_cases hdetail : (found T DETAIL text && contains (py "transaction") text) = true
  · rw [if_pos hdetail]
    decide
  rw [if_neg hdetail]
  by_cases hrecurring : found T RECURRING text = true
  · rw [if_pos hrecurring]
    decide
  rw [if_neg hrecurring, if_pos]
  · decide
  · rcases h with ((h | h) | h) | h
    · exact absurd h hrelationship
    · exact absurd h hdetail
    · exact absurd h hrecurring
    · exact h

/-- Otherwise the comparison comes first. -/
theorem intent_of_later (h : earlierIntent T text = false) : intent T text =
    if found T COMPARISON text && found T COMPARED text then .compare
    else if found T TRANSACTIONS text then .transactions
    else if found T SUMMARY text then .summary
    else .unsupported := by
  simp only [earlierIntent, Bool.or_eq_false_iff] at h
  obtain ⟨⟨⟨hrelationship, hdetail⟩, hrecurring⟩, hreceivables⟩ := h
  rw [intent, hrelationship, hdetail, hrecurring, hreceivables]
  rfl

/-- **The agent answers for no other period**, for every question that names one: it stays
    unsupported, or is a comparison with last month alone, exactly if it is answerable. -/
theorem route_stays_fixed_iff {question : PyStr}
    (hnames : Names T U (UNSUPPORTED_PERIOD T) question) :
    StaysFixed T U question ↔ Answerable T U question := by
  unfold StaysFixed Answerable route Names at *
  dsimp only
  generalize U.casefold question = text at hnames ⊢
  by_cases hseen : found T (UNSUPPORTED_PERIOD T) text = true
  · rw [if_pos hseen, hseen, Bool.true_and]
    cases hexempt : exempt T text with
    | false => simp
    | true =>
      -- the guard makes an exception: the comparison is reached unless an intent comes before it
      obtain ⟨hlast, hother⟩ := exempt_names hseen hexempt
      have hcompared := found_compared hlast
      have hlast := found_ignoringCase hlast
      have hcomparison : found T COMPARISON text = true := by
        rw [exempt, Bool.and_eq_true, Bool.and_eq_true] at hexempt
        exact hexempt.1.1
      cases hearlier : earlierIntent T text with
      | true =>
        obtain ⟨hunsupported, hcompare⟩ := intent_of_earlier hearlier
        simp [hunsupported, hcompare]
      | false =>
        have hintent := intent_of_later hearlier
        rw [hcomparison, hcompared] at hintent
        simp [hintent, hcomparison, hother, lastMonth, hlast]
  · rw [if_neg hseen]
    have hraw := hnames.resolve_right hseen
    rw [Bool.not_eq_true] at hseen
    rw [hseen, Bool.false_and]
    simp only [Bool.false_eq_true, if_false]
    have hclear : found T lastMonth text = false ∧ found T (otherPeriod T) text = false := by
      rw [← Bool.not_eq_true, ← Bool.not_eq_true, ← not_or, ← found_period, hseen]
      exact Bool.false_ne_true
    rw [hclear.1, hclear.2]
    rw [found_period] at hraw
    cases hearlier : earlierIntent T text with
    | true =>
      obtain ⟨hunsupported, hcompare⟩ := intent_of_earlier hearlier
      simp [hunsupported, hcompare]
    | false =>
      rw [intent_of_later hearlier]
      cases hcompared : found T COMPARISON text && found T COMPARED text with
      | true =>
        have hcomparison := (Bool.and_eq_true _ _ ▸ hcompared).1
        cases hother : found T (otherPeriod T) question with
        | true => simp
        | false =>
          rw [hother] at hraw
          have hlast := hraw.resolve_right Bool.false_ne_true
          simp [hcomparison, hlast]
      | false =>
        cases htransactions : found T TRANSACTIONS text with
        | true => simp
        | false =>
          cases hsummary : found T SUMMARY text with
          | true => simp
          | false => simp

/-- The language model never picks a tool for a question that names a period as it is written. -/
theorem chosenTool_of_period (choose : PyStr → ToolName) {question : PyStr}
    (h : found T (UNSUPPORTED_PERIOD T) question = true) :
    chosenTool T U choose question = .unsupported ∨
      chosenTool T U choose question = route T U question := by
  unfold chosenTool
  by_cases hblocked : blocked T question = true
  · exact .inl (if_pos hblocked)
  · rw [if_neg hblocked, if_neg]
    · exact .inr rfl
    · rw [unsupportedPeriod, h, Bool.true_and]
      simp

end Guard

/-- The tables on ASCII text. -/
def asciiTables : ReTables := ⟨fun _ => false, fun _ => false⟩

/-- A comparison with last month is answered by the comparison. -/
theorem route_stays_fixed_iff_spending :
    route asciiTables .plain (py "compare my spending with last month") = .compare ∧
    (StaysFixed asciiTables .plain (py "compare my spending with last month") ↔
      Answerable asciiTables .plain (py "compare my spending with last month")) :=
  ⟨by decide +kernel, route_stays_fixed_iff (.inl (by decide +kernel))⟩

/-- A comparison of subscriptions with last month is answered by the payments of the next thirty
    days. -/
theorem route_answers_upcoming : ¬ ∀ question,
    Names asciiTables .plain (UNSUPPORTED_PERIOD asciiTables) question →
      StaysFixed asciiTables .plain question := by
  intro h
  have hroute : route asciiTables .plain (py "compare my subscription with last month") =
      .recurring := by
    decide +kernel
  rcases h (py "compare my subscription with last month") (.inl (by decide +kernel)) with
    hfixed | ⟨hfixed, -⟩
  · rw [hroute] at hfixed
    cases hfixed
  · rw [hroute] at hfixed
    cases hfixed

end Expensea.Agent
