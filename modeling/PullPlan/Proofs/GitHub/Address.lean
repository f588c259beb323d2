import Mathlib.Data.List.Basic
import PullPlan.Proofs.GitHub.Conversation
import PullPlan.Proofs.PullRequest.Url

/-!
# Whose address it is

The address of a pull request is put together from its parts as they are. An owner or a repository
with a slash in its name moves the border between the two: `a/b` and `c` read like `a` and `b/c`
(`ReadsAlike`). Before a request, the client checks only that the parts are not empty.

`Client.addresses_eq_iff` says which pull requests share the text of an address: those that read
alike, and no others. What is fetched for them is then the same. `Client.addresses_collide` is a
pair that passes the check and is confused.

All of this is about the text that is put together, and a `Network` may answer every text in its own
way. A text is parsed before it is sent, though: what stands behind a `#` is dropped, and segments
such as `..` are resolved. So a name with such characters in it may share a request with further
pull requests whose addresses are other texts. Nothing here rules that out.
-/

namespace PullPlan

/-! ### Texts with a slash in them -/

/-- The part behind the last slash can be told from what stands in front of it. -/
theorem Text.append_slash_inj {front front' last last' : Text} (h : '/' ∉ last) (h' : '/' ∉ last') :
    front ++ '/' :: last = front' ++ '/' :: last' ↔ front = front' ∧ last = last' := by
  constructor
  · intro heq
    -- From the end, the last slash is the first one.
    have hcut : ∀ front last : Text, '/' ∉ last →
        cutAt? '/' (front ++ '/' :: last).reverse = some (last.reverse, front.reverse) :=
      fun front last hlast => cutAt?_eq_some_iff.2 ⟨by simp, by simpa using hlast⟩
    have hparts := hcut front last h
    rw [heq, hcut front' last' h'] at hparts
    simp only [Option.some.injEq, Prod.mk.injEq, List.reverse_inj] at hparts
    exact ⟨hparts.2.symm, hparts.1.symm⟩
  · rintro ⟨rfl, rfl⟩
    rfl

theorem Text.slash_notMem_ofNat (n : Nat) : '/' ∉ Text.ofNat n := by
  intro h
  have hdigit := Text.isAsciiDigit_of_mem_ofNat h
  contradiction

namespace PullRequest

/-- Two pull requests have the same number, and owner and repository read the same when a slash is
put between them. -/
structure ReadsAlike (pr pr' : PullRequest) : Prop where
  repo : pr.owner ++ '/' :: pr.repo = pr'.owner ++ '/' :: pr'.repo
  number : pr.number = pr'.number

variable {pr pr' : PullRequest}

/-- Nothing else reads like names without a slash. -/
theorem ReadsAlike.eq_of_no_slash (h : ReadsAlike pr pr') (howner : '/' ∉ pr.owner)
    (hrepo : '/' ∉ pr.repo) : pr = pr' := by
  obtain ⟨howners, -, hrepos⟩ := (List.append_cons_inj_of_notMem howner hrepo).1 h.repo
  rcases pr with ⟨owner, repo, number⟩
  rcases pr' with ⟨owner', repo', number'⟩
  simp only [PullRequest.mk.injEq]
  exact ⟨howners, hrepos, h.number⟩

/-- The border between owner and repository has moved: what is `between` the two borders belongs to
the owner of the one and to the repository of the other. -/
def Shifts (pr pr' : PullRequest) : Prop :=
  ∃ between, pr.owner = pr'.owner ++ '/' :: between ∧ pr'.repo = between ++ '/' :: pr.repo
    ∧ pr.number = pr'.number

/-- A longer owner takes up the slash and a first part of the other repository. -/
theorem eq_or_shifts {more : Text} (howner : pr.owner = pr'.owner ++ more)
    (hrepo : '/' :: pr'.repo = more ++ '/' :: pr.repo) (hnumber : pr.number = pr'.number) :
    pr = pr' ∨ Shifts pr pr' := by
  cases more with
  | nil =>
    rcases pr with ⟨owner, repo, number⟩
    rcases pr' with ⟨owner', repo', number'⟩
    simp only [List.append_nil, List.nil_append, List.cons.injEq, true_and] at howner hrepo hnumber
    exact .inl (by rw [howner, hrepo, hnumber])
  | cons c between =>
    simp only [List.cons_append, List.cons.injEq] at hrepo
    obtain ⟨rfl, hrepo⟩ := hrepo
    exact .inr ⟨between, howner, hrepo, hnumber⟩

theorem readsAlike_iff : ReadsAlike pr pr' ↔ pr = pr' ∨ Shifts pr pr' ∨ Shifts pr' pr := by
  constructor
  · rintro ⟨hrepo, hnumber⟩
    rcases List.append_eq_append_iff.1 hrepo with ⟨more, howner, hrepo⟩ | ⟨more, howner, hrepo⟩
    · rcases eq_or_shifts howner hrepo hnumber.symm with heq | hshifts
      · exact .inl heq.symm
      · exact .inr (.inr hshifts)
    · exact (eq_or_shifts howner hrepo hnumber).imp_right .inl
  · rintro (rfl | ⟨between, howner, hrepo, hnumber⟩ | ⟨between, howner, hrepo, hnumber⟩)
    · exact ⟨rfl, rfl⟩
    · exact ⟨by simp [howner, hrepo], hnumber⟩
    · exact ⟨by simp [howner, hrepo], hnumber.symm⟩

/-- The names in a web address have no slash. -/
theorem slash_notMem_of_ofUrl {url : Text} (h : ofUrl url = .ok pr) :
    '/' ∉ pr.owner ∧ '/' ∉ pr.repo := by
  obtain ⟨digits, tail, haddress, -, -⟩ := ofUrl_eq_ok_iff.1 h
  exact ⟨fun hslash => (haddress.owner.2 _ hslash).1 rfl,
    fun hslash => (haddress.repo.2 _ hslash).1 rfl⟩

end PullRequest

namespace GitHub
namespace Client

open PullRequest (ReadsAlike)

variable {client : Client} {network : Network} {pr pr' : PullRequest}

/-! ### Addresses -/

theorem repoUrl_eq_iff {owner repo owner' repo' : Text} :
    client.repoUrl owner repo = client.repoUrl owner' repo' ↔
      owner ++ '/' :: repo = owner' ++ '/' :: repo' := by
  simp [repoUrl]

/-- The number can be read off an address of this form, and the repository but for the border
between its owner and its name. -/
theorem numbered_eq_iff (client : Client) (part : Text) :
    client.repoUrl pr.owner pr.repo ++ part ++ '/' :: Text.ofNat pr.number
        = client.repoUrl pr'.owner pr'.repo ++ part ++ '/' :: Text.ofNat pr'.number ↔
      ReadsAlike pr pr' := by
  rw [Text.append_slash_inj (Text.slash_notMem_ofNat _) (Text.slash_notMem_ofNat _),
    Text.ofNat_inj, List.append_left_inj, repoUrl_eq_iff]
  exact ⟨fun h => ⟨h.1, h.2⟩, fun h => ⟨h.repo, h.number⟩⟩

theorem bodyUrl_eq_iff : client.bodyUrl pr = client.bodyUrl pr' ↔ ReadsAlike pr pr' := by
  rw [← numbered_eq_iff client "/pulls".toList]
  simp [bodyUrl]

theorem commentsUrl_eq_iff :
    client.commentsUrl pr = client.commentsUrl pr' ↔ ReadsAlike pr pr' := by
  have hurl : ∀ pr, client.commentsUrl pr
      = client.repoUrl pr.owner pr.repo ++ "/issues".toList ++ '/' :: Text.ofNat pr.number
        ++ "/comments".toList := fun pr => by simp [commentsUrl]
  rw [hurl, hurl, List.append_left_inj, numbered_eq_iff]

/-! ### What is fetched -/

/-- Some network answers one address and not the other. -/
theorem exists_network_of_ne (client : Client) {α : Type} {decode? : Json.Tree → Option α}
    {content : Json} {answer : α} (hdecode : decode? content.tree = some answer) {url url' : Text}
    (h : url ≠ url') :
    ∃ network, client.get network decode? url = .ok answer
      ∧ client.get network decode? url' = .error .request := by
  let network : Network := fun request => if request.url = url then reply 200 content else none
  have hthere : network (client.request url) = reply 200 content := if_pos rfl
  have hmissing : network (client.request url') = none := if_neg (Ne.symm h)
  refine ⟨network, ?_, ?_⟩
  · have hreply : Delivers (· = content.tree) (network (client.request url)) := by
      rw [hthere]
      exact delivers_reply rfl
    have hget : ∃ a, client.get network decode? url = .ok a ∧ a = answer :=
      get_of_delivers hreply fun tree htree => ⟨answer, by rw [htree, hdecode], rfl⟩
    obtain ⟨_, hget, rfl⟩ := hget
    exact hget
  · simp only [get, hmissing]

/-- Two addresses are the same text if no network makes a difference, whatever is made of its
answer; but it has to show that there is an answer. -/
theorem forall_network_iff (client : Client) {α β : Type} {decode? : Json.Tree → Option α}
    {content : Json} {answer : α} (hdecode : decode? content.tree = some answer)
    (made : Except Error α → β) (hmade : made (.ok answer) ≠ made (.error .request))
    {url url' : Text} :
    (∀ network, made (client.get network decode? url) = made (client.get network decode? url'))
      ↔ url = url' := by
  constructor
  · intro hsame
    by_contra hne
    obtain ⟨network, hget, hget'⟩ := exists_network_of_ne client hdecode hne
    have hanswers := hsame network
    rw [hget, hget'] at hanswers
    exact hmade hanswers
  · rintro rfl network
    rfl

section
variable (h : checkPullRequest pr = .ok ()) (h' : checkPullRequest pr' = .ok ())
include h h'

theorem body_eq_iff :
    (∀ network, client.body network pr = client.body network pr') ↔ ReadsAlike pr pr' := by
  have hdecode : Payload.details? (record []).tree = some none := rfl
  simp only [body_of_check h, body_of_check h']
  exact (forall_network_iff client hdecode (·.map (·.getD [])) nofun).trans bodyUrl_eq_iff

theorem comments_eq_iff :
    (∀ network, client.comments network pr = client.comments network pr')
      ↔ ReadsAlike pr pr' := by
  have hdecode : Payload.comments? (Json.array []).tree = some [] := rfl
  simp only [comments_of_check h, comments_of_check h']
  exact (forall_network_iff client hdecode id nofun).trans commentsUrl_eq_iff

theorem source_text_of_readsAlike (hreads : ReadsAlike pr pr') :
    (client.source network).text pr = (client.source network).text pr' := by
  have hbody : client.body network pr = client.body network pr' :=
    (body_eq_iff h h').2 hreads network
  have hcomments : client.comments network pr = client.comments network pr' :=
    (comments_eq_iff h h').2 hreads network
  simp only [Source.text, source, hbody, hcomments]

/-- **Which pull requests share the text of an address.** Of two that pass the check, the texts of
the addresses of the body and of the comments are the same exactly if owner and repository read the
same with a slash between them, and the numbers are the same. Then what is fetched is the same, and
otherwise some network, which sees these texts, answers them differently. Two different ones read
alike exactly if the border between owner and repository has moved over a slash. So if the names of
a pull request have no slash, as those that are read from a web address, then no other one has the
same texts. -/
theorem addresses_eq_iff :
    (client.bodyUrl pr = client.bodyUrl pr' ↔ ReadsAlike pr pr')
      ∧ (client.commentsUrl pr = client.commentsUrl pr' ↔ ReadsAlike pr pr')
      ∧ ((∀ network, client.body network pr = client.body network pr') ↔ ReadsAlike pr pr')
      ∧ ((∀ network, client.comments network pr = client.comments network pr')
          ↔ ReadsAlike pr pr')
      ∧ (ReadsAlike pr pr' ↔ pr = pr' ∨ PullRequest.Shifts pr pr' ∨ PullRequest.Shifts pr' pr)
      ∧ ('/' ∉ pr.owner → '/' ∉ pr.repo → pr ≠ pr' →
          client.bodyUrl pr ≠ client.bodyUrl pr' ∧ client.commentsUrl pr ≠ client.commentsUrl pr')
      ∧ ∀ url, PullRequest.ofUrl url = .ok pr → '/' ∉ pr.owner ∧ '/' ∉ pr.repo := by
  refine ⟨bodyUrl_eq_iff, commentsUrl_eq_iff, body_eq_iff h h', comments_eq_iff h h',
    PullRequest.readsAlike_iff, fun howner hrepo hne => ?_,
    fun _ => PullRequest.slash_notMem_of_ofUrl⟩
  have hreads : ¬ ReadsAlike pr pr' := fun hreads => hne (hreads.eq_of_no_slash howner hrepo)
  exact ⟨mt bodyUrl_eq_iff.1 hreads, mt commentsUrl_eq_iff.1 hreads⟩

end

/-! ### Two borders in one text -/

/-- A pull request with a slash in the name of its owner. -/
def slashedOwner : PullRequest := ⟨"a/b".toList, "c".toList, 1⟩

/-- A pull request with a slash in the name of its repository. -/
def slashedRepo : PullRequest := ⟨"a".toList, "b/c".toList, 1⟩

theorem addresses_eq_iff_firstPull :
    (∀ url, PullRequest.ofUrl url = .ok firstPull → '/' ∉ firstPull.owner ∧ '/' ∉ firstPull.repo)
      ∧ publicClient.bodyUrl firstPull ≠ publicClient.bodyUrl slashedRepo
      ∧ publicClient.commentsUrl firstPull ≠ publicClient.commentsUrl slashedRepo := by
  obtain ⟨-, -, -, -, -, haddresses, hread⟩ :=
    @addresses_eq_iff publicClient firstPull slashedRepo rfl rfl
  exact ⟨hread, haddresses (by decide) (by decide) (by decide)⟩

/-- The one is asked for, and the text of the other one comes. -/
theorem addresses_collide :
    checkPullRequest slashedOwner = .ok () ∧ checkPullRequest slashedRepo = .ok ()
      ∧ slashedOwner ≠ slashedRepo
      ∧ publicClient.bodyUrl slashedOwner = publicClient.bodyUrl slashedRepo
      ∧ publicClient.commentsUrl slashedOwner = publicClient.commentsUrl slashedRepo
      ∧ (publicClient.source (server publicClient.apiRoot publicClient.token slashedOwner
          "text".toList ["comment".toList])).text slashedRepo
            = .ok ("text".toList, ["comment".toList]) := by
  have hreads : ReadsAlike slashedRepo slashedOwner := ⟨rfl, rfl⟩
  have hserves := serves_server publicClient.apiRoot publicClient.token slashedOwner
    "text".toList ["comment".toList]
  refine ⟨rfl, rfl, by decide, (bodyUrl_eq_iff.2 hreads).symm, (commentsUrl_eq_iff.2 hreads).symm,
    ?_⟩
  rw [source_text_of_readsAlike rfl rfl hreads]
  exact source_text_of_serves (by decide) (by decide) (by decide) hserves

end Client
end GitHub
end PullPlan
