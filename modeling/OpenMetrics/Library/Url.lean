import Mathlib.Data.Finset.Max
import Mathlib.Data.List.DropRight
import Mathlib.Data.List.Flatten

/-! How a server reads the path of an absolute URL: as the list of its segments, with dot segments
resolved and escapes decoded. Characters that the client escapes on its own come back when the
server decodes them, so they are left as they are. -/

namespace OpenMetrics.Library.Url

def utf8 (l : List Char) : List UInt8 := l.flatMap String.utf8EncodeChar

def hexValue (c : Char) : Option Nat :=
  if '0' ≤ c ∧ c ≤ '9' then some (c.toNat - '0'.toNat)
  else if 'a' ≤ c ∧ c ≤ 'f' then some (c.toNat - 'a'.toNat + 10)
  else if 'A' ≤ c ∧ c ≤ 'F' then some (c.toNat - 'A'.toNat + 10)
  else none

def escaped (c high low : Char) : Option UInt8 :=
  if c = '%' then
    match hexValue high, hexValue low with
    | some h, some l => some (UInt8.ofNat (16 * h + l))
    | _, _ => none
  else none

def decode : List Char → List UInt8
  | c :: high :: low :: rest =>
      match escaped c high low with
      | some byte => byte :: decode rest
      | none => String.utf8EncodeChar c ++ decode (high :: low :: rest)
  | short => utf8 short

def hasEscape : List Char → Bool
  | c :: high :: low :: rest => (escaped c high low).isSome || hasEscape (high :: low :: rest)
  | _ => false

@[simp] theorem utf8_nil : utf8 [] = [] := rfl

@[simp] theorem utf8_cons (c : Char) (l : List Char) :
    utf8 (c :: l) = String.utf8EncodeChar c ++ utf8 l := rfl

theorem utf8_injective : Function.Injective utf8 := by
  intro l l' same
  have bytes : (String.ofList l).toByteArray = (String.ofList l').toByteArray :=
    congrArg List.toByteArray same
  exact String.ofList_injective (String.toByteArray_inj.mp bytes)

theorem length_utf8EncodeChar_pos (c : Char) : 0 < (String.utf8EncodeChar c).length := by
  rw [String.length_utf8EncodeChar]
  exact Char.utf8Size_pos c

theorem eq_of_sublist {l l' : List Char} (sub : l.Sublist l')
    (long : (utf8 l').length ≤ (utf8 l).length) : l = l' :=
  utf8_injective ((sub.flatMap String.utf8EncodeChar).eq_of_length_le long)

theorem length_decode_add_le (l : List Char) :
    (decode l).length + (if hasEscape l then 1 else 0) ≤ (utf8 l).length := by
  fun_induction decode l with
  | case1 c high low rest byte found ih =>
      have positive := length_utf8EncodeChar_pos c
      have positive' := length_utf8EncodeChar_pos high
      have positive'' := length_utf8EncodeChar_pos low
      simp only [hasEscape, found, Option.isSome_some, Bool.true_or, if_true, List.length_cons,
        utf8_cons, List.length_append]
      omega
  | case2 c high low rest none ih =>
      simp only [hasEscape, none, Option.isSome_none, Bool.false_or, utf8_cons c,
        List.length_append]
      omega
  | case3 short tooShort =>
      have plain : hasEscape short = false := by
        unfold hasEscape
        split
        · exact absurd rfl (tooShort _ _ _ _)
        · rfl
      simp [plain]

theorem decode_of_not_hasEscape {l : List Char} (plain : hasEscape l = false) :
    decode l = utf8 l := by
  fun_induction decode l with
  | case1 c high low rest byte found ih => simp [hasEscape, found] at plain
  | case2 c high low rest none ih =>
      simp only [hasEscape, none, Option.isSome_none, Bool.false_or] at plain
      rw [ih plain, utf8_cons c]
  | case3 short tooShort => rfl

/-- RFC 3986, and the URL Standard of the browsers for `http` and `https`. -/
inductive Standard where
  | rfc3986 | whatwg

namespace Standard

def separates : Standard → Char → Bool
  | rfc3986, c => c = '/'
  | whatwg, c => c = '/' ∨ c = '\\'

def drops : Standard → Char → Bool
  | rfc3986, _ => false
  | whatwg, c => c = '\t' ∨ c = '\n' ∨ c = '\r'

def trims : Standard → Char → Bool
  | rfc3986, _ => false
  | whatwg, c => c ≤ ' '

end Standard

variable (standard : Standard)

def strip (url : List Char) : List Char :=
  ((url.dropWhile standard.trims).rdropWhile standard.trims).filter fun c => !standard.drops c

def beforeQuery (url : List Char) : List Char := url.takeWhile fun c => c ≠ '?' ∧ c ≠ '#'

def segments (url : List Char) : List (List Char) :=
  (beforeQuery (strip standard url)).splitOnP standard.separates

def enter (stack : List (List UInt8)) (segment : List UInt8) : List (List UInt8) :=
  if segment = utf8 ['.', '.'] then stack.dropLast
  else if segment = utf8 ['.'] then stack
  else stack ++ [segment]

def resolve (segments : List (List UInt8)) : List (List UInt8) :=
  let stack := segments.foldl enter []
  match segments.getLast? with
  | some last => if last = utf8 ['.', '.'] ∨ last = utf8 ['.'] then stack ++ [[]] else stack
  | none => stack

/-- The scheme, the empty text between the two slashes and the host come before the path. -/
def path (url : String) : List (List UInt8) :=
  resolve (((segments standard url.toList).drop 3).map decode)

section
variable {standard}

@[simp] theorem separates_slash : standard.separates '/' = true := by cases standard <;> rfl

@[simp] theorem drops_slash : standard.drops '/' = false := by cases standard <;> rfl

@[simp] theorem trims_slash : standard.trims '/' = false := by cases standard <;> rfl

variable (standard) in
def Clean (text : List Char) : Prop :=
  ∀ c ∈ text, standard.separates c = false ∧ c ≠ '?' ∧ c ≠ '#' ∧ standard.drops c = false

theorem all_iff_clean {text : List Char} : (text.all fun c => standard.separates c = false ∧
    c ≠ '?' ∧ c ≠ '#' ∧ standard.drops c = false) ↔ Clean standard text := by
  simp only [List.all_eq_true, decide_eq_true_eq, Clean]

instance : DecidablePred (Clean standard) := fun _ => decidable_of_iff _ all_iff_clean

def slashed (base : List (List Char)) : List Char := base.flatMap (· ++ ['/'])

variable (standard) in
def tail (text : List Char) : List Char :=
  beforeQuery ((text.rdropWhile standard.trims).filter fun c => !standard.drops c)

theorem rdropWhile_append_cons {α : Type} {p : α → Bool} {a : α} (kept : ¬ p a)
    (front back : List α) :
    (front ++ a :: back).rdropWhile p = front ++ a :: back.rdropWhile p := by
  induction back using List.reverseRecOn with
  | nil => exact List.rdropWhile_concat_neg p front a kept
  | append_singleton back last ih =>
      rw [← List.cons_append, ← List.append_assoc, List.rdropWhile_concat, ih,
        List.rdropWhile_concat]
      split_ifs <;> simp

theorem flatten_splitOnP {α : Type} (p : α → Bool) (l : List α) :
    (l.splitOnP p).flatten = l.filter fun a => !p a := by
  induction l with
  | nil => rfl
  | cons a l ih =>
      rw [List.splitOnP_cons_eq_if_modifyHead]
      by_cases separates : p a
      · simp [separates, ih]
      · obtain ⟨first, rest, split⟩ := List.exists_cons_of_ne_nil (List.splitOnP_ne_nil p l)
        rw [split] at ih ⊢
        simp [separates, ← ih]

theorem splitOnP_slashed {base : List (List Char)} (clean : ∀ s ∈ base, Clean standard s)
    (text : List Char) :
    (slashed base ++ text).splitOnP standard.separates =
      base ++ text.splitOnP standard.separates := by
  induction base with
  | nil => rfl
  | cons s rest ih =>
      have own : ∀ c ∈ s, standard.separates c = false :=
        fun c member => (clean s (by simp) c member).1
      have step := List.splitOnP_append_cons_of_forall_mem own '/' separates_slash
        (slashed rest ++ text)
      rw [slashed, List.flatMap_cons, List.append_assoc, List.append_assoc]
      exact step.trans (congrArg (s :: ·) (ih fun s' member => clean s' (by simp [member])))

theorem mem_slashed {base : List (List Char)} {c : Char} :
    c ∈ slashed base → c = '/' ∨ ∃ s ∈ base, c ∈ s := by
  intro member
  obtain ⟨s, listed, inside⟩ := List.mem_flatMap.mp member
  cases List.mem_append.mp inside with
  | inl own => exact Or.inr ⟨s, listed, own⟩
  | inr slash => exact Or.inl (List.mem_singleton.mp slash)

theorem segments_slashed {scheme : List Char} {base : List (List Char)}
    (clean : ∀ s ∈ scheme :: base, Clean standard s)
    (starts : ∀ c ∈ scheme.head?, standard.trims c = false) (text : List Char) :
    segments standard (slashed (scheme :: base) ++ text) =
      scheme :: base ++ (tail standard text).splitOnP standard.separates := by
  have kept : ∀ c ∈ slashed (scheme :: base), standard.drops c = false ∧ c ≠ '?' ∧ c ≠ '#' := by
    intro c member
    cases mem_slashed member with
    | inl slash =>
        subst slash
        exact ⟨drops_slash, by decide, by decide⟩
    | inr own =>
        obtain ⟨s, listed, inside⟩ := own
        obtain ⟨-, noQuery, noFragment, kept⟩ := clean s listed c inside
        exact ⟨kept, noQuery, noFragment⟩
  have front : (slashed (scheme :: base) ++ text).dropWhile standard.trims =
      slashed (scheme :: base) ++ text := by
    cases scheme with
    | nil => exact List.dropWhile_cons_of_neg (by simp)
    | cons c scheme => exact List.dropWhile_cons_of_neg (by simp [starts c rfl])
  have back : (slashed (scheme :: base) ++ text).rdropWhile standard.trims =
      slashed (scheme :: base) ++ text.rdropWhile standard.trims := by
    obtain ⟨before, last, split⟩ : ∃ before last, scheme :: base = before ++ [last] :=
      ⟨_, _, (List.dropLast_append_getLast (List.cons_ne_nil scheme base)).symm⟩
    have ends : slashed (scheme :: base) = slashed before ++ last ++ ['/'] := by
      simp [split, slashed]
    have cut := rdropWhile_append_cons (p := standard.trims) (a := '/') (by simp)
      (slashed before ++ last) text
    simpa [ends] using cut
  have notDropped : (slashed (scheme :: base)).filter (fun c => !standard.drops c) =
      slashed (scheme :: base) := by
    apply List.filter_eq_self.mpr
    intro c member
    simp [(kept c member).1]
  rw [segments, strip, front, back, List.filter_append, notDropped, beforeQuery,
    List.takeWhile_append_of_pos]
  · exact splitOnP_slashed clean _
  · intro c member
    exact decide_eq_true (kept c member).2

theorem tail_eq_self {text : List Char} : tail standard text = text ↔
    (∀ c ∈ text, c ≠ '?' ∧ c ≠ '#' ∧ standard.drops c = false) ∧
      ∀ c ∈ text.getLast?, standard.trims c = false := by
  have trimmed : text.rdropWhile standard.trims = text ↔
      ∀ c ∈ text.getLast?, standard.trims c = false := by
    rw [List.rdropWhile_eq_self_iff]
    cases List.eq_nil_or_concat text with
    | inl empty => simp [empty]
    | inr more =>
        obtain ⟨front, last, split⟩ := more
        simp [split]
  have filtered : text.filter (fun c => !standard.drops c) = text ↔
      ∀ c ∈ text, standard.drops c = false := by
    simp [List.filter_eq_self]
  have cut : beforeQuery text = text ↔ ∀ c ∈ text, c ≠ '?' ∧ c ≠ '#' := by
    simp [beforeQuery, List.takeWhile_eq_self_iff]
  constructor
  · intro same
    -- each of the three cuts leaves a sublist, so none of them takes anything from the text
    have last := (List.takeWhile_prefix (p := fun c => decide (c ≠ '?' ∧ c ≠ '#'))
      (l := (text.rdropWhile standard.trims).filter fun c => !standard.drops c)).sublist
    have second := List.filter_sublist (p := fun c => !standard.drops c)
      (l := text.rdropWhile standard.trims)
    have first := (List.rdropWhile_prefix standard.trims text).sublist
    rw [tail, beforeQuery] at same
    rw [same] at last
    have kept := first.antisymm (last.trans second)
    rw [kept] at last second same
    have kept' := second.antisymm last
    rw [kept'] at same
    exact ⟨fun c member => ⟨(cut.mp same c member).1, (cut.mp same c member).2,
      filtered.mp kept' c member⟩, trimmed.mp kept⟩
  · intro plain
    rcases plain with ⟨kept, ends⟩
    rw [tail, trimmed.mpr ends, filtered.mpr fun c member => (kept c member).2.2]
    exact cut.mpr fun c member => ⟨(kept c member).1, (kept c member).2.1⟩

theorem tail_sublist (text : List Char) : (tail standard text).Sublist text :=
  (List.takeWhile_prefix _).sublist.trans
    (List.filter_sublist.trans (List.rdropWhile_prefix _ _).sublist)

theorem sublist_of_mem_splitOnP {α : Type} {p : α → Bool} {part l : List α}
    (member : part ∈ l.splitOnP p) : part.Sublist l ∧ ∀ a ∈ part, p a = false := by
  have inside := List.sublist_flatten_of_mem member
  rw [flatten_splitOnP] at inside
  refine ⟨inside.trans List.filter_sublist, fun a own => ?_⟩
  simpa using (List.mem_filter.mp (inside.subset own)).2

end

/-- The text is a segment that stands for itself. -/
structure Plain (text : List Char) : Prop where
  clean : Clean standard text
  untrimmed : ∀ c ∈ text.getLast?, standard.trims c = false
  unescaped : hasEscape text = false
  notDot : text ≠ ['.']
  notDots : text ≠ ['.', '.']

def below (base path : List (List UInt8)) : Option (List UInt8) :=
  if base <+: path then path[base.length]? else none

section
variable {standard}

theorem foldl_enter_plain {base : List (List Char)} (plain : ∀ s ∈ base, Plain standard s)
    (stack : List (List UInt8)) :
    (base.map utf8).foldl enter stack = stack ++ base.map utf8 := by
  induction base generalizing stack with
  | nil => simp
  | cons s rest ih =>
      have own := plain s (by simp)
      have entered : enter stack (utf8 s) = stack ++ [utf8 s] := by
        rw [enter, if_neg fun dots => own.notDots (utf8_injective dots),
          if_neg fun dot => own.notDot (utf8_injective dot)]
      rw [List.map_cons, List.foldl_cons, entered, ih fun s' member => plain s' (by simp [member])]
      simp

def Behind (n : Nat) (known : List UInt8 → Prop) (stack : List (List UInt8)) : Prop :=
  ∀ i x, n ≤ i → stack[i]? = some x → known x

theorem behind_concat {n : Nat} {known : List UInt8 → Prop} {stack : List (List UInt8)}
    (behind : Behind n known stack) {part : List UInt8} (new : known part) :
    Behind n known (stack ++ [part]) := by
  intro i x after found
  rw [List.getElem?_append] at found
  split_ifs at found with older
  · exact behind i x after found
  · obtain rfl := List.mem_singleton.mp (List.mem_of_getElem? found)
    exact new

theorem behind_enter {n : Nat} {known : List UInt8 → Prop} {stack : List (List UInt8)}
    (behind : Behind n known stack) {part : List UInt8}
    (new : part ≠ utf8 ['.'] → part ≠ utf8 ['.', '.'] → known part) :
    Behind n known (enter stack part) := by
  unfold enter
  split_ifs with dots dot
  · intro i x after found
    rw [List.getElem?_dropLast] at found
    split_ifs at found
    exact behind i x after found
  · exact behind
  · exact behind_concat behind (new dot dots)

theorem resolve_behind {base : List (List Char)} (plain : ∀ s ∈ base, Plain standard s)
    {known : List UInt8 → Prop} (empty : known []) {parts : List (List UInt8)}
    (new : ∀ part ∈ parts, part ≠ utf8 ['.'] → part ≠ utf8 ['.', '.'] → known part) :
    Behind base.length known (resolve (base.map utf8 ++ parts)) := by
  have start : Behind base.length known (base.map utf8) := by
    intro i x after found
    rw [List.getElem?_eq_none (by simpa using after)] at found
    cases found
  have entered : Behind base.length known ((base.map utf8 ++ parts).foldl enter []) := by
    rw [List.foldl_append, foldl_enter_plain plain, List.nil_append]
    exact List.foldlRecOn (motive := Behind base.length known) parts enter start
      fun _ behind part member => behind_enter behind (new part member)
  unfold resolve
  dsimp only
  split
  · split_ifs
    · exact behind_concat entered empty
    · exact entered
  · exact entered

theorem path_slashed {scheme host : List Char} {base : List (List Char)}
    (scheme_clean : Clean standard scheme)
    (starts : ∀ c ∈ scheme.head?, standard.trims c = false) (host_clean : Clean standard host)
    (plain : ∀ s ∈ base, Plain standard s) (text : List Char) :
    path standard (String.ofList (slashed (scheme :: [] :: host :: base) ++ text)) =
      resolve (base.map utf8 ++
        ((tail standard text).splitOnP standard.separates).map decode) := by
  have clean : ∀ s ∈ scheme :: [] :: host :: base, Clean standard s := by
    intro s member
    simp only [List.mem_cons] at member
    obtain rfl | rfl | rfl | member := member
    · exact scheme_clean
    · exact fun c inside => absurd inside (List.not_mem_nil)
    · exact host_clean
    · exact (plain s member).clean
  have decoded : base.map decode = base.map utf8 :=
    List.map_congr_left fun s member => decode_of_not_hasEscape (plain s member).unescaped
  rw [path, String.toList_ofList, segments_slashed clean starts, ← decoded, ← List.map_append]
  rfl

theorem plain_nil : Plain standard [] where
  clean _ inside := absurd inside List.not_mem_nil
  untrimmed _ last := by cases last
  unescaped := rfl
  notDot := by decide
  notDots := by decide

def isWord (c : Char) : Bool :=
  ('a' ≤ c && c ≤ 'z') || ('A' ≤ c && c ≤ 'Z') || ('0' ≤ c && c ≤ '9') || c = '-' || c = '_'

theorem hasEscape_of_no_percent {text : List Char} (without : '%' ∉ text) :
    hasEscape text = false := by
  fun_induction hasEscape text with
  | case1 c high low rest ih =>
      have own : c ≠ '%' := fun same => without (by simp [same])
      rw [escaped, if_neg own, ih fun later => without (List.mem_cons_of_mem c later)]
      rfl
  | case2 => rfl

theorem lt_of_isWord {c : Char} (word : isWord c) : ' ' < c := by
  simp only [isWord, Bool.or_eq_true, Bool.and_eq_true, decide_eq_true_eq] at word
  obtain ((((lower | upper) | digit) | dash) | underscore) := word
  · exact UInt32.lt_of_lt_of_le (by decide : ' '.val < 'a'.val) lower.1
  · exact UInt32.lt_of_lt_of_le (by decide : ' '.val < 'A'.val) upper.1
  · exact UInt32.lt_of_lt_of_le (by decide : ' '.val < '0'.val) digit.1
  · subst dash
    decide
  · subst underscore
    decide

theorem plain_of_words {text : List Char} (words : text.all isWord) : Plain standard text := by
  rw [List.all_eq_true] at words
  have apart (special : Char) (apart : isWord special = false) : special ∉ text := by
    intro member
    simp [words special member] at apart
  have dot : '.' ∉ text := apart '.' rfl
  refine ⟨fun c member => ?_, fun c last => ?_, hasEscape_of_no_percent (apart '%' rfl),
    fun same => dot (by simp [same]), fun same => dot (by simp [same])⟩
  · have ne (special : Char) (word : isWord special = false) : c ≠ special :=
      fun same => apart special word (same ▸ member)
    cases standard <;> simp [Standard.separates, Standard.drops, ne '/' rfl, ne '\\' rfl,
      ne '?' rfl, ne '#' rfl, ne '\t' rfl, ne '\n' rfl, ne '\r' rfl]
  · cases standard with
    | rfc3986 => rfl
    | whatwg =>
        have word := words c (List.mem_of_getLast? last)
        exact decide_eq_false (Char.not_le.mpr (lt_of_isWord word))

theorem resolve_plain {base : List (List Char)} (plain : ∀ s ∈ base, Plain standard s)
    {text : List Char} (own : Plain standard text) :
    resolve (base.map utf8 ++ [utf8 text]) = base.map utf8 ++ [utf8 text] := by
  have all : ∀ s ∈ base ++ [text], Plain standard s := by
    intro s member
    cases List.mem_append.mp member with
    | inl listed => exact plain s listed
    | inr last =>
        obtain rfl := List.mem_singleton.mp last
        exact own
  have stack := foldl_enter_plain all []
  rw [List.map_append, List.nil_append, List.map_singleton] at stack
  have notDot : ¬ (utf8 text = utf8 ['.', '.'] ∨ utf8 text = utf8 ['.']) := fun dot =>
    dot.elim (fun dots => own.notDots (utf8_injective dots))
      fun dot => own.notDot (utf8_injective dot)
  simp only [resolve, stack, List.getLast?_concat, if_neg notDot]

theorem part_of_below {base parts : List (List Char)} (plain : ∀ s ∈ base, Plain standard s)
    {x : List UInt8}
    (reached : below (base.map utf8) (resolve (base.map utf8 ++ parts.map decode)) = some x) :
    x = [] ∨ (∃ part ∈ parts, decode part = x) ∧ x ≠ utf8 ['.'] ∧ x ≠ utf8 ['.', '.'] := by
  let Entered (x : List UInt8) : Prop :=
    x = [] ∨ (∃ part ∈ parts, decode part = x) ∧ x ≠ utf8 ['.'] ∧ x ≠ utf8 ['.', '.']
  have behind : Behind base.length Entered (resolve (base.map utf8 ++ parts.map decode)) :=
    resolve_behind plain (Or.inl rfl) fun x member dot dots =>
      Or.inr ⟨List.mem_map.mp member, dot, dots⟩
  unfold below at reached
  split_ifs at reached
  rw [List.length_map] at reached
  exact behind base.length x le_rfl reached

theorem plain_of_part {text part : List Char}
    (member : part ∈ (tail standard text).splitOnP standard.separates)
    (decoded : decode part = utf8 text) (notDot : text ≠ ['.']) (notDots : text ≠ ['.', '.']) :
    Plain standard text := by
  obtain ⟨inside, unseparated⟩ := sublist_of_mem_splitOnP member
  have short := length_decode_add_le part
  rw [decoded] at short
  have same : part = text := eq_of_sublist (inside.trans (tail_sublist text)) (by omega)
  subst same
  obtain ⟨kept, untrimmed⟩ := tail_eq_self.mp ((tail_sublist part).antisymm inside)
  have unescaped : hasEscape part = false := by
    by_contra escapes
    rw [if_pos (by simpa using escapes)] at short
    omega
  exact ⟨fun c own => ⟨unseparated c own, kept c own⟩, untrimmed, unescaped, notDot, notDots⟩

theorem below_path_iff {scheme host : List Char} {base : List (List Char)}
    (scheme_clean : Clean standard scheme)
    (starts : ∀ c ∈ scheme.head?, standard.trims c = false) (host_clean : Clean standard host)
    (plain : ∀ s ∈ base, Plain standard s) (text : List Char) :
    below (base.map utf8)
        (path standard (String.ofList (slashed (scheme :: [] :: host :: base) ++ text))) =
      some (utf8 text) ↔ Plain standard text := by
  rw [path_slashed scheme_clean starts host_clean plain]
  constructor
  · intro reached
    cases part_of_below plain reached with
    | inl empty =>
        obtain rfl := utf8_injective (empty.trans utf8_nil.symm)
        exact plain_nil
    | inr entered =>
        obtain ⟨⟨part, member, decoded⟩, dot, dots⟩ := entered
        exact plain_of_part member decoded (fun same => dot (congrArg utf8 same))
          fun same => dots (congrArg utf8 same)
  · intro own
    have whole : tail standard text = text :=
      tail_eq_self.mpr ⟨fun c member => (own.clean c member).2, own.untrimmed⟩
    rw [whole, List.splitOnP_eq_singleton fun c member => (own.clean c member).1,
      List.map_singleton, decode_of_not_hasEscape own.unescaped, resolve_plain plain own]
    simp [below]

theorem below_path_shorter {scheme host : List Char} {base : List (List Char)}
    (scheme_clean : Clean standard scheme)
    (starts : ∀ c ∈ scheme.head?, standard.trims c = false) (host_clean : Clean standard host)
    (plain : ∀ s ∈ base, Plain standard s) {text : List Char} {x : List UInt8}
    (reached : below (base.map utf8)
      (path standard (String.ofList (slashed (scheme :: [] :: host :: base) ++ text))) = some x) :
    x = utf8 text ∨ x.length < (utf8 text).length := by
  rw [path_slashed scheme_clean starts host_clean plain] at reached
  rcases part_of_below plain reached with rfl | ⟨⟨part, member, rfl⟩, -, -⟩
  · cases text with
    | nil => exact Or.inl rfl
    | cons c rest =>
        apply Or.inr
        rw [utf8_cons, List.length_append, List.length_nil]
        exact Nat.add_pos_left (length_utf8EncodeChar_pos c) _
  · have inside := (sublist_of_mem_splitOnP member).1.trans (tail_sublist text)
    have decoded := length_decode_add_le part
    have bytes := (inside.flatMap String.utf8EncodeChar).length_le
    rw [← utf8, ← utf8] at bytes
    by_cases short : (decode part).length < (utf8 text).length
    · exact Or.inr short
    · obtain rfl := eq_of_sublist inside (by omega)
      refine Or.inl (decode_of_not_hasEscape ?_)
      by_contra escapes
      rw [if_pos (by simpa using escapes)] at decoded
      omega

theorem plain_of_all_reached {scheme host : List Char} {base : List (List Char)}
    (scheme_clean : Clean standard scheme)
    (starts : ∀ c ∈ scheme.head?, standard.trims c = false) (host_clean : Clean standard host)
    (plain : ∀ s ∈ base, Plain standard s) {texts : List (List Char)}
    (reached : ∀ text ∈ texts, ∃ other ∈ texts, below (base.map utf8)
      (path standard (String.ofList (slashed (scheme :: [] :: host :: base) ++ other))) =
        some (utf8 text)) :
    ∀ text ∈ texts, Plain standard text := by
  classical
  intro text member
  by_contra special
  -- a longest text that is not plain would have to come from a longer one
  obtain ⟨text, member, longest⟩ := Finset.exists_max_image
    (texts.toFinset.filter fun text => ¬ Plain standard text) (fun text => (utf8 text).length)
    ⟨text, Finset.mem_filter.mpr ⟨List.mem_toFinset.mpr member, special⟩⟩
  rw [Finset.mem_filter, List.mem_toFinset] at member
  obtain ⟨other, listed, found⟩ := reached text member.1
  have own := below_path_iff scheme_clean starts host_clean plain other
  have special' : ¬ Plain standard other := by
    intro plainOther
    have same := utf8_injective (Option.some.inj (found.symm.trans (own.mpr plainOther)))
    exact member.2 (same ▸ plainOther)
  cases below_path_shorter scheme_clean starts host_clean plain found with
  | inl same => exact special' (own.mp (by rw [found, same]))
  | inr shorter =>
      have bound := longest other
        (Finset.mem_filter.mpr ⟨List.mem_toFinset.mpr listed, special'⟩)
      exact absurd bound (Nat.not_le.mpr shorter)

end

end OpenMetrics.Library.Url
