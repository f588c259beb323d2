import Mathlib.Data.List.Basic
import PullPlan.Proofs.Text.Digits
import PullPlan.Proofs.Text.Trim
import PullPlan.PullRequest.Url

/-!
# The grammar of pull request URLs

`IsAddress` is the form of the web address of a pull request: the parts in their order, and what
each of them may hold. Reading takes each part as long as it can; `pathParts?_eq_some_iff` says that
this finds just the addresses, since no part can hold the character that ends it. So an address has
its parts in one way only (`IsAddress.unique`).

`Reads` lists the four answers, each with what the text then is, and `ofUrl` gives one of them
(`reads_ofUrl`). `ofUrl_grammar` puts this together: which texts are taken for which pull requests,
which error is reported for each of the other texts, and that the address of a pull request is read
back.
-/

namespace PullPlan

theorem isDecimalDigit_of_isAsciiDigit {c : Char} (h : isAsciiDigit c = true) :
    isDecimalDigit c = true := by
  have hrow : 0x30 ∈ digitRows := List.mem_cons_self
  rw [isAsciiDigit_iff] at h
  unfold isDecimalDigit
  rw [List.any_eq_true]
  refine ⟨0x30, hrow, ?_⟩
  simp only [Bool.and_eq_true, decide_eq_true_eq]
  omega

namespace PullRequest

/-! ### Addresses and their parts -/

/-- What the name of an owner or a repository may be. -/
def IsName (name : Text) : Prop := name ≠ [] ∧ ∀ c ∈ name, c ≠ '/' ∧ isBlank c = false

/-- What may follow the number of a pull request. -/
def IsTail (tail : Text) : Prop :=
  (∀ c, tail.head? = some c → c = '/' ∨ c = '?' ∨ c = '#') ∧ '\n' ∉ tail

/-- A text is the web address of a pull request, with a number in digits of a given class. -/
structure IsAddress (isDigit : Char → Bool) (t owner repo digits tail : Text) : Prop where
  eq_append : t = webRoot ++ (owner ++ '/' :: (repo ++ ("/pull/".toList ++ (digits ++ tail))))
  owner : IsName owner
  repo : IsName repo
  digits_ne_nil : digits ≠ []
  isDigit : ∀ c ∈ digits, isDigit c = true
  tail : IsTail tail

/-- The address of a pull request, with nothing behind its number. -/
def address (pr : PullRequest) : Text :=
  webRoot ++ (pr.owner ++ '/' :: (pr.repo ++ ("/pull/".toList ++ Text.ofNat pr.number)))

theorem isNameChar_iff {c : Char} : isNameChar c = true ↔ c ≠ '/' ∧ isBlank c = false := by
  simp [isNameChar]

instance (name : Text) : Decidable (IsName name) :=
  decidable_of_iff ((!name.isEmpty && name.all isNameChar) = true)
    (by simp [IsName, isNameChar_iff])

/-- A name is read up to the first character that cannot be in it. -/
theorem name?_eq_some_iff {t name rest : Text} :
    name? t = some (name, rest) ↔
      t = name ++ rest ∧ IsName name ∧ ∀ c, rest.head? = some c → isNameChar c = false := by
  have hname : (∀ c ∈ name, isNameChar c = true) ↔ ∀ c ∈ name, c ≠ '/' ∧ isBlank c = false :=
    forall₂_congr fun _ _ => isNameChar_iff
  unfold name? IsName
  dsimp only
  constructor
  · intro h
    split at h
    · contradiction
    · rename_i hne
      obtain ⟨htake, hdrop⟩ := Prod.mk.inj (Option.some.inj h)
      obtain ⟨ht, hrun, hrest⟩ := Text.run_iff.1 ⟨htake, hdrop⟩
      rw [htake] at hne
      exact ⟨ht, ⟨by simpa using hne, hname.1 hrun⟩, hrest⟩
  · rintro ⟨ht, ⟨hne, hrun⟩, hrest⟩
    obtain ⟨htake, hdrop⟩ := Text.run_iff.2 ⟨ht, hname.2 hrun, hrest⟩
    rw [htake, hdrop, if_neg (by simpa using hne)]

theorem isTrailer_iff {tail : Text} : isTrailer tail = true ↔ IsTail tail := by
  unfold IsTail
  cases tail with
  | nil => simp [isTrailer]
  | cons c rest =>
    have hfeed : c = '/' ∨ c = '?' ∨ c = '#' → '\n' ≠ c := by
      rintro (rfl | rfl | rfl) <;> decide
    simp only [isTrailer, Bool.and_eq_true, Bool.or_eq_true, decide_eq_true_eq, or_assoc,
      Bool.not_eq_true', List.contains_eq_mem, decide_eq_false_iff_not, List.head?_cons,
      Option.some.injEq, forall_eq', List.mem_cons, not_or]
    constructor
    · rintro ⟨hc, hrest⟩
      exact ⟨hc, hfeed hc, hrest⟩
    · rintro ⟨hc, -, hrest⟩
      exact ⟨hc, hrest⟩

instance (tail : Text) : Decidable (IsTail tail) := decidable_of_iff _ isTrailer_iff

/-- What follows a number does not go on with it. -/
theorem IsTail.isDecimalDigit {tail : Text} (h : IsTail tail) {c : Char}
    (hc : tail.head? = some c) : isDecimalDigit c = false := by
  rcases h.1 c hc with rfl | rfl | rfl <;> decide

/-- **Taking each part as long as it can be finds just the addresses.** -/
theorem pathParts?_eq_some_iff {path owner repo digits : Text} :
    pathParts? path = some (owner, repo, digits) ↔
      ∃ tail, IsAddress isDecimalDigit (webRoot ++ path) owner repo digits tail := by
  constructor
  · intro h
    unfold pathParts? at h
    obtain ⟨⟨owner', rest₁⟩, howner, h⟩ := Option.bind_eq_some_iff.1 h
    obtain ⟨rest₂, hslash, h⟩ := Option.bind_eq_some_iff.1 h
    obtain ⟨⟨repo', rest₃⟩, hrepo, h⟩ := Option.bind_eq_some_iff.1 h
    obtain ⟨rest₄, hpull, h⟩ := Option.bind_eq_some_iff.1 h
    dsimp only at h
    split at h
    · contradiction
    · rename_i hdigits
      simp only [Option.some.injEq, Prod.mk.injEq] at h
      obtain ⟨rfl, rfl, rfl⟩ := h
      obtain ⟨rfl, howner, -⟩ := name?_eq_some_iff.1 howner
      obtain ⟨rfl, hrepo, -⟩ := name?_eq_some_iff.1 hrepo
      rw [Text.after?_eq_some_iff] at hslash hpull
      obtain ⟨hrest, hrun, -⟩ := Text.run_iff (p := isDecimalDigit) (t := rest₄).1 ⟨rfl, rfl⟩
      simp only [Bool.or_eq_true, List.isEmpty_iff, Bool.not_eq_true', not_or,
        Bool.not_eq_false] at hdigits
      refine ⟨rest₄.dropWhile isDecimalDigit, ?_, howner, hrepo, hdigits.1, hrun,
        isTrailer_iff.1 hdigits.2⟩
      rw [hslash, hpull, ← hrest]
      rfl
  · rintro ⟨tail, heq, howner, hrepo, hne, hdigit, htail⟩
    -- Each run stops where its part does: the slashes are in no name, and a digit starts no tail.
    have hpath := List.append_cancel_left heq
    have hname : name? path
        = some (owner, '/' :: (repo ++ ("/pull/".toList ++ (digits ++ tail)))) :=
      name?_eq_some_iff.2 ⟨hpath, howner, by rintro c ⟨⟩; decide⟩
    have hslash : Text.after? ['/'] ('/' :: (repo ++ ("/pull/".toList ++ (digits ++ tail))))
        = some (repo ++ ("/pull/".toList ++ (digits ++ tail))) :=
      Text.after?_eq_some_iff.2 rfl
    have hname' : name? (repo ++ ("/pull/".toList ++ (digits ++ tail)))
        = some (repo, "/pull/".toList ++ (digits ++ tail)) :=
      name?_eq_some_iff.2 ⟨rfl, hrepo, by rintro c ⟨⟩; decide⟩
    have hpull : Text.after? "/pull/".toList ("/pull/".toList ++ (digits ++ tail))
        = some (digits ++ tail) := Text.after?_eq_some_iff.2 rfl
    obtain ⟨htake, hdrop⟩ := Text.run_iff.2
      ⟨rfl, hdigit, fun c hc => htail.isDecimalDigit hc⟩
    have hempty : digits.isEmpty = false := by simpa using hne
    unfold pathParts?
    simp only [hname, hslash, hname', hpull, htake, hdrop, hempty, isTrailer_iff.2 htail,
      Option.bind_eq_bind, Option.bind_some, Bool.not_true, Bool.or_self, Bool.false_eq_true,
      ↓reduceIte]

/-! ### One decomposition -/

theorem IsAddress.mono {isDigit isDigit' : Char → Bool} {t owner repo digits tail : Text}
    (h : IsAddress isDigit t owner repo digits tail)
    (hdigit : ∀ c, isDigit c = true → isDigit' c = true) :
    IsAddress isDigit' t owner repo digits tail :=
  { h with isDigit := fun c hc => hdigit c (h.isDigit c hc) }

theorem IsAddress.exists_path {isDigit : Char → Bool} {t owner repo digits tail : Text}
    (h : IsAddress isDigit t owner repo digits tail) : ∃ path, t = webRoot ++ path :=
  ⟨_, h.eq_append⟩

theorem IsAddress.unique {t owner repo digits tail owner' repo' digits' tail' : Text}
    (h : IsAddress isDecimalDigit t owner repo digits tail)
    (h' : IsAddress isDecimalDigit t owner' repo' digits' tail') :
    owner = owner' ∧ repo = repo' ∧ digits = digits' ∧ tail = tail' := by
  obtain ⟨path, rfl⟩ := h.exists_path
  have hparts := pathParts?_eq_some_iff.2 ⟨tail, h⟩
  have hparts' := pathParts?_eq_some_iff.2 ⟨tail', h'⟩
  rw [hparts, Option.some.injEq, Prod.mk.injEq, Prod.mk.injEq] at hparts'
  obtain ⟨rfl, rfl, rfl⟩ := hparts'
  -- What is left of the two decompositions is the tail.
  have htail : tail = tail' := by simpa using h.eq_append.symm.trans h'.eq_append
  exact ⟨rfl, rfl, rfl, htail⟩

/-! ### What reading answers -/

theorem number?_eq_some_iff {digits : Text} {n : Nat} :
    (Text.natural? digits).filter (· < wordBound) = some n ↔
      (digits ≠ [] ∧ (∀ c ∈ digits, isAsciiDigit c = true) ∧ Text.toNat digits = n)
        ∧ n < wordBound := by
  rw [Option.filter_eq_some_iff, Text.natural?_eq_some_iff, decide_eq_true_iff]

theorem number?_eq_none_iff {digits : Text} (hne : digits ≠ []) :
    (Text.natural? digits).filter (· < wordBound) = none ↔
      ¬(∀ c ∈ digits, isAsciiDigit c = true) ∨ wordBound ≤ Text.toNat digits := by
  rw [Option.eq_none_iff_forall_ne_some]
  constructor
  · intro h
    by_cases hdigit : ∀ c ∈ digits, isAsciiDigit c = true
    · refine Or.inr (Nat.le_of_not_lt fun hlt => ?_)
      exact h _ (number?_eq_some_iff.2 ⟨⟨hne, hdigit, rfl⟩, hlt⟩)
    · exact Or.inl hdigit
  · intro h n hn
    obtain ⟨⟨-, hdigit, rfl⟩, hlt⟩ := number?_eq_some_iff.1 hn
    rcases h with h | h
    · exact h hdigit
    · exact absurd hlt (Nat.not_lt.2 h)

variable {url : Text}

theorem ofUrl_of_not_root (h : ¬∃ path, Text.trim url = webRoot ++ path) :
    ofUrl url = .error (.invalidHost (Text.trim url)) := by
  have hafter : Text.after? webRoot (Text.trim url) = none := by
    rw [Option.eq_none_iff_forall_ne_some]
    intro path hpath
    exact h ⟨path, Text.after?_eq_some_iff.1 hpath⟩
  simp only [ofUrl, hafter]

theorem ofUrl_of_not_address (hroot : ∃ path, Text.trim url = webRoot ++ path)
    (h : ¬∃ owner repo digits tail,
      IsAddress isDecimalDigit (Text.trim url) owner repo digits tail) :
    ofUrl url = .error (.missingPullSegment (Text.trim url)) := by
  obtain ⟨path, hpath⟩ := hroot
  have hparts : pathParts? path = none := by
    rw [Option.eq_none_iff_forall_ne_some]
    rintro ⟨owner, repo, digits⟩ hparts
    obtain ⟨tail, haddress⟩ := pathParts?_eq_some_iff.1 hparts
    exact h ⟨owner, repo, digits, tail, hpath ▸ haddress⟩
  simp only [ofUrl, Text.after?_eq_some_iff.2 hpath, hparts]

section
variable {owner repo digits tail : Text}
  (h : IsAddress isDecimalDigit (Text.trim url) owner repo digits tail)
include h

theorem ofUrl_of_number (hdigit : ∀ c ∈ digits, isAsciiDigit c = true)
    (hlt : Text.toNat digits < wordBound) :
    ofUrl url = .ok ⟨owner, repo, Text.toNat digits⟩ := by
  obtain ⟨path, hpath⟩ := h.exists_path
  have hparts := pathParts?_eq_some_iff.2 ⟨tail, hpath ▸ h⟩
  have hnumber := number?_eq_some_iff.2 ⟨⟨h.digits_ne_nil, hdigit, rfl⟩, hlt⟩
  simp only [ofUrl, Text.after?_eq_some_iff.2 hpath, hparts, hnumber]

theorem ofUrl_of_not_number
    (hnot : ¬(∀ c ∈ digits, isAsciiDigit c = true) ∨ wordBound ≤ Text.toNat digits) :
    ofUrl url = .error (.invalidNumber digits) := by
  obtain ⟨path, hpath⟩ := h.exists_path
  have hparts := pathParts?_eq_some_iff.2 ⟨tail, hpath ▸ h⟩
  have hnumber := (number?_eq_none_iff h.digits_ne_nil).2 hnot
  simp only [ofUrl, Text.after?_eq_some_iff.2 hpath, hparts, hnumber]

end

/-- The four answers that a text without blanks around it can have, each with what the text then
is. -/
inductive Reads (t : Text) : Except UrlError PullRequest → Prop
  | invalidHost (h : ¬∃ path, t = webRoot ++ path) : Reads t (.error (.invalidHost t))
  | missingPullSegment (hroot : ∃ path, t = webRoot ++ path)
    (h : ¬∃ owner repo digits tail, IsAddress isDecimalDigit t owner repo digits tail) :
    Reads t (.error (.missingPullSegment t))
  | invalidNumber {owner repo digits tail : Text}
    (h : IsAddress isDecimalDigit t owner repo digits tail)
    (hnot : ¬(∀ c ∈ digits, isAsciiDigit c = true) ∨ wordBound ≤ Text.toNat digits) :
    Reads t (.error (.invalidNumber digits))
  | pullRequest {owner repo digits tail : Text}
    (h : IsAddress isAsciiDigit t owner repo digits tail) (hlt : Text.toNat digits < wordBound) :
    Reads t (.ok ⟨owner, repo, Text.toNat digits⟩)

theorem reads_ofUrl (url : Text) : Reads (Text.trim url) (ofUrl url) := by
  by_cases hroot : ∃ path, Text.trim url = webRoot ++ path
  · by_cases haddress : ∃ owner repo digits tail,
        IsAddress isDecimalDigit (Text.trim url) owner repo digits tail
    · obtain ⟨owner, repo, digits, tail, h⟩ := haddress
      by_cases hnot : ¬(∀ c ∈ digits, isAsciiDigit c = true) ∨ wordBound ≤ Text.toNat digits
      · rw [ofUrl_of_not_number h hnot]
        exact .invalidNumber h hnot
      · rw [not_or, Decidable.not_not, Nat.not_le] at hnot
        obtain ⟨hdigit, hlt⟩ := hnot
        have hascii : IsAddress isAsciiDigit (Text.trim url) owner repo digits tail :=
          { h with isDigit := hdigit }
        rw [ofUrl_of_number h hdigit hlt]
        exact .pullRequest hascii hlt
    · rw [ofUrl_of_not_address hroot haddress]
      exact .missingPullSegment hroot haddress
  · rw [ofUrl_of_not_root hroot]
    exact .invalidHost hroot

theorem ofUrl_eq_ok_iff {owner repo : Text} {number : Nat} :
    ofUrl url = .ok ⟨owner, repo, number⟩ ↔
      ∃ digits tail, IsAddress isAsciiDigit (Text.trim url) owner repo digits tail
        ∧ Text.toNat digits = number ∧ number < wordBound := by
  constructor
  · intro hok
    have hreads := reads_ofUrl url
    rw [hok] at hreads
    cases hreads with
    | pullRequest h hlt => exact ⟨_, _, h, rfl, hlt⟩
  · rintro ⟨digits, tail, h, rfl, hlt⟩
    exact ofUrl_of_number (h.mono fun _ => isDecimalDigit_of_isAsciiDigit) h.isDigit hlt

theorem ofUrl_eq_invalidHost_iff {u : Text} :
    ofUrl url = .error (.invalidHost u) ↔
      u = Text.trim url ∧ ¬∃ path, Text.trim url = webRoot ++ path := by
  constructor
  · intro herror
    have hreads := reads_ofUrl url
    rw [herror] at hreads
    cases hreads with
    | invalidHost h => exact ⟨rfl, h⟩
  · rintro ⟨rfl, hroot⟩
    exact ofUrl_of_not_root hroot

theorem ofUrl_eq_missingPullSegment_iff {u : Text} :
    ofUrl url = .error (.missingPullSegment u) ↔
      u = Text.trim url ∧ (∃ path, Text.trim url = webRoot ++ path)
        ∧ ¬∃ owner repo digits tail,
            IsAddress isDecimalDigit (Text.trim url) owner repo digits tail := by
  constructor
  · intro herror
    have hreads := reads_ofUrl url
    rw [herror] at hreads
    cases hreads with
    | missingPullSegment hroot h => exact ⟨rfl, hroot, h⟩
  · rintro ⟨rfl, hroot, h⟩
    exact ofUrl_of_not_address hroot h

theorem ofUrl_eq_invalidNumber_iff {digits : Text} :
    ofUrl url = .error (.invalidNumber digits) ↔
      ∃ owner repo tail, IsAddress isDecimalDigit (Text.trim url) owner repo digits tail
        ∧ (¬(∀ c ∈ digits, isAsciiDigit c = true) ∨ wordBound ≤ Text.toNat digits) := by
  constructor
  · intro herror
    have hreads := reads_ofUrl url
    rw [herror] at hreads
    cases hreads with
    | invalidNumber h hnot => exact ⟨_, _, _, h, hnot⟩
  · rintro ⟨owner, repo, tail, h, hnot⟩
    exact ofUrl_of_not_number h hnot

/-! ### Writing the address -/

theorem isAddress_address {pr : PullRequest} (howner : IsName pr.owner) (hrepo : IsName pr.repo) :
    IsAddress isAsciiDigit (address pr) pr.owner pr.repo (Text.ofNat pr.number) [] where
  eq_append := by rw [address, List.append_nil]
  owner := howner
  repo := hrepo
  digits_ne_nil := Text.ofNat_ne_nil _
  isDigit _ hc := Text.isAsciiDigit_of_mem_ofNat hc
  tail := ⟨by rintro c ⟨⟩, List.not_mem_nil⟩

/-- An address starts with a letter and ends with a digit. -/
theorem trim_address (pr : PullRequest) : Text.trim (address pr) = address pr := by
  apply Text.trim_eq_self
  · intro c hc
    obtain rfl : 'h' = c := Option.some.inj hc
    decide
  · intro c hc
    have hdigits := Text.ofNat_ne_nil pr.number
    have hfront : address pr = (webRoot ++ (pr.owner ++ '/' :: (pr.repo ++ "/pull/".toList)))
        ++ Text.ofNat pr.number := by simp [address]
    rw [hfront, List.getLast?_append_of_ne_nil _ hdigits] at hc
    exact isBlank_of_isAsciiDigit (Text.isAsciiDigit_of_mem_ofNat (List.mem_of_getLast? hc))

/-- **Reading a URL accepts the addresses of pull requests, blanks around them aside, and nothing
else.** The number counts if it has ASCII digits and fits in a word. An address has its parts in one
way only; what has another start is no address of this host, what is an address but for its number
has a wrong number, and the rest lacks the path of a pull request. The address of a pull request is
read back. -/
theorem ofUrl_grammar (url : Text) :
    (∀ owner repo number, ofUrl url = .ok ⟨owner, repo, number⟩ ↔
        ∃ digits tail, IsAddress isAsciiDigit (Text.trim url) owner repo digits tail
          ∧ Text.toNat digits = number ∧ number < wordBound)
      ∧ (∀ owner repo digits tail owner' repo' digits' tail',
          IsAddress isAsciiDigit (Text.trim url) owner repo digits tail →
          IsAddress isAsciiDigit (Text.trim url) owner' repo' digits' tail' →
          owner = owner' ∧ repo = repo' ∧ digits = digits' ∧ tail = tail')
      ∧ (∀ u, ofUrl url = .error (.invalidHost u) ↔
          u = Text.trim url ∧ ¬∃ path, Text.trim url = webRoot ++ path)
      ∧ (∀ digits, ofUrl url = .error (.invalidNumber digits) ↔
          ∃ owner repo tail, IsAddress isDecimalDigit (Text.trim url) owner repo digits tail
            ∧ (¬(∀ c ∈ digits, isAsciiDigit c = true) ∨ wordBound ≤ Text.toNat digits))
      ∧ (∀ u, ofUrl url = .error (.missingPullSegment u) ↔
          u = Text.trim url ∧ (∃ path, Text.trim url = webRoot ++ path)
            ∧ ¬∃ owner repo digits tail,
                IsAddress isDecimalDigit (Text.trim url) owner repo digits tail)
      ∧ (∀ pr : PullRequest, IsName pr.owner → IsName pr.repo → pr.number < wordBound →
          ofUrl (address pr) = .ok pr) := by
  have hdecimal : ∀ c, isAsciiDigit c = true → isDecimalDigit c = true :=
    fun _ => isDecimalDigit_of_isAsciiDigit
  refine ⟨fun _ _ _ => ofUrl_eq_ok_iff, ?_, fun _ => ofUrl_eq_invalidHost_iff,
    fun _ => ofUrl_eq_invalidNumber_iff, fun _ => ofUrl_eq_missingPullSegment_iff, ?_⟩
  · intro _ _ _ _ _ _ _ _ h h'
    exact (h.mono hdecimal).unique (h'.mono hdecimal)
  · intro pr howner hrepo hlt
    have haddress := isAddress_address howner hrepo
    rw [← trim_address pr] at haddress
    exact ofUrl_eq_ok_iff.2 ⟨_, _, haddress, Text.toNat_ofNat _, hlt⟩

/-- The address of a pull request with blanks around it, zeros before its number and a page of it
behind. -/
def paddedUrl : Text := "  https://github.com/o/r/pull/007/files?x#y \n".toList

theorem isAddress_paddedUrl :
    IsAddress isAsciiDigit (Text.trim paddedUrl) ['o'] ['r'] "007".toList "/files?x#y".toList where
  eq_append := by decide +kernel
  owner := by decide
  repo := by decide
  digits_ne_nil := by decide
  isDigit := List.all_eq_true.1 (by decide)
  tail := by decide

theorem ofUrl_grammar_paddedUrl :
    ofUrl paddedUrl = .ok ⟨['o'], ['r'], 7⟩
      ∧ (∀ owner repo digits tail,
          IsAddress isAsciiDigit (Text.trim paddedUrl) owner repo digits tail →
          ['o'] = owner ∧ ['r'] = repo ∧ "007".toList = digits ∧ "/files?x#y".toList = tail)
      ∧ ofUrl (address ⟨['o'], ['r'], 7⟩) = .ok ⟨['o'], ['r'], 7⟩ := by
  obtain ⟨hok, hunique, -, -, -, hback⟩ := ofUrl_grammar paddedUrl
  refine ⟨?_, fun _ _ _ _ => hunique _ _ _ _ _ _ _ _ isAddress_paddedUrl, ?_⟩
  · exact (hok _ _ _).2 ⟨_, _, isAddress_paddedUrl, by decide, by decide⟩
  · exact hback ⟨['o'], ['r'], 7⟩ (by decide) (by decide) (by decide)

end PullRequest
end PullPlan
