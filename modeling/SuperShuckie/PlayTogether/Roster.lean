import SuperShuckie.PlayTogether.Relay
import SuperShuckie.PlayTogether.Follow

/-!
# The link cable roster

The host keeps which pairs are linked and which requests are outstanding.  Each operation below is what
one thread does to the two tables while it holds their lock.
-/

set_option autoImplicit false

namespace SuperShuckie

open ByteFormat

namespace PlayTogether

/-! ## Consoles that can be joined -/

/-- A family of consoles a link cable can join. -/
inductive LinkFamily
  | gameBoy | gameBoyAdvance
deriving DecidableEq

/-- The link cable family of a console, or `none` when it cannot link. -/
def linkFamily : ReplayConsoleType → Option LinkFamily
  | .gameBoy | .superGameBoy2 | .gameBoyColor => some .gameBoy
  | .gameBoyAdvance => some .gameBoyAdvance
  | .unknown | .nintendoDS | .nintendo3DS => none

/-- Whether two consoles can be joined by a link cable. -/
def canLink (a b : ReplayConsoleType) : Bool :=
  (linkFamily a).isSome && linkFamily a == linkFamily b

/-! ## Games that can follow each other -/

def consoleName : ReplayConsoleType → String
  | .unknown => "Unknown"
  | .gameBoy => "Game Boy"
  | .superGameBoy2 => "Super Game Boy 2"
  | .gameBoyColor => "Game Boy Color"
  | .gameBoyAdvance => "Game Boy Advance"
  | .nintendoDS => "Nintendo DS"
  | .nintendo3DS => "Nintendo 3DS"

/-- Whether a follower can run a publisher's stream. -/
inductive FollowCompatibility
  | ok
  | consoleMismatch (theirs : ReplayConsoleType)
  | romMismatch
  | coreMismatch (theirs : String)
  | biosMismatch
deriving DecidableEq

/-- Compare two metadata records; the first difference wins. -/
def followCompatibility (own publisher : ReplayFileMetadata) : FollowCompatibility :=
  if own.consoleType ≠ publisher.consoleType then .consoleMismatch publisher.consoleType
  else if own.romChecksum ≠ publisher.romChecksum then .romMismatch
  else if own.emulatorCoreName ≠ publisher.emulatorCoreName then
    .coreMismatch publisher.emulatorCoreName
  else if own.biosChecksum ≠ publisher.biosChecksum then .biosMismatch
  else .ok

/-- A sentence for the user about why a session cannot be followed. -/
def describeIncompatibility (displayName : String) : FollowCompatibility → String
  | .ok => s!"{displayName}'s session can be followed."
  | .consoleMismatch theirs =>
    s!"{displayName} is playing on a {consoleName theirs}, which is a different console from yours."
  | .romMismatch => s!"{displayName} is playing a different ROM from yours."
  | .coreMismatch theirs =>
    s!"{displayName} is using the emulator core '{theirs}', which is not the one you have loaded."
  | .biosMismatch => s!"{displayName} is using a different BIOS from yours."

/-! ## The tables -/

/-- The ends of a link cable message that is relayed. -/
def Message.linkEndpoints : Message → Option (PeerId × PeerId)
  | .linkRequest sender target _ _ | .linkAccept sender target _ | .linkDecline sender target _ _
  | .linkStart sender target _ _ _ _ _ _ | .linkFrame sender target _ _ _ _ _
  | .unlink sender target _ => some (sender, target)
  | _ => none

/-- A request: who asks whom, and the nonce of it. -/
abbrev LinkAsk := PeerId × PeerId × UInt32

instance : LawfulBEq LinkAsk := inferInstance

structure Roster where
  /-- Who is linked with whom, each pair once, in either order. -/
  links : List (PeerId × PeerId)
  /-- Requests relayed and not yet answered, one for each requester. -/
  requests : List LinkAsk

namespace Roster

def empty : Roster := ⟨[], []⟩

/-- The peer is one end of a recorded link. -/
def IsLinked (r : Roster) (peer : PeerId) : Prop := ∃ l ∈ r.links, l.1 = peer ∨ l.2 = peer

/-- The two are linked with each other. -/
def AreLinked (r : Roster) (a b : PeerId) : Prop :=
  ∃ l ∈ r.links, l.1 = a ∧ l.2 = b ∨ l.1 = b ∧ l.2 = a

instance (r : Roster) (peer : PeerId) : Decidable (r.IsLinked peer) :=
  inferInstanceAs (Decidable (∃ l ∈ r.links, _))

instance (r : Roster) (a b : PeerId) : Decidable (r.AreLinked a b) :=
  inferInstanceAs (Decidable (∃ l ∈ r.links, _))

/-- One outstanding request for each requester: a new one replaces the old. -/
def record (ask : LinkAsk) (r : Roster) : Roster :=
  { r with requests := r.requests.filter (·.1 ≠ ask.1) ++ [ask] }

/-- The request was answered. -/
def answered (ask : LinkAsk) (r : Roster) : Roster :=
  { r with requests := r.requests.erase ask }

def link (a b : PeerId) (r : Roster) : Roster := { r with links := r.links ++ [(a, b)] }

/-- Unplug the two, and forget what they asked of each other. -/
def unlink (a b : PeerId) (r : Roster) : Roster where
  links := r.links.filter fun l ↦ ¬ (l.1 = a ∧ l.2 = b ∨ l.1 = b ∧ l.2 = a)
  requests := r.requests.filter fun q ↦ ¬ (q.1 = a ∧ q.2.1 = b ∨ q.1 = b ∧ q.2.1 = a)

/-- Whom the peer is linked with. -/
def partners (r : Roster) (peer : PeerId) : List PeerId :=
  r.links.filterMap fun l ↦
    if l.1 = peer then some l.2 else if l.2 = peer then some l.1 else none

/-- The peer left: forget its links and its requests. -/
def depart (peer : PeerId) (r : Roster) : Roster where
  links := r.links.filter fun l ↦ l.1 ≠ peer ∧ l.2 ≠ peer
  requests := r.requests.filter fun q ↦ q.1 ≠ peer ∧ q.2.1 ≠ peer

/-! ## Who is linked with whom afterwards -/

variable {r : Roster} {a b a' b' peer : PeerId}

theorem AreLinked.symm (h : r.AreLinked a b) : r.AreLinked b a := by
  obtain ⟨l, hl, hends⟩ := h
  exact ⟨l, hl, hends.symm⟩

/-- Fewer links link fewer. -/
theorem AreLinked.of_subset {r' : Roster} (h : r'.AreLinked a b) (hlinks : r'.links ⊆ r.links) :
    r.AreLinked a b := by
  obtain ⟨l, hl, hends⟩ := h
  exact ⟨l, hlinks hl, hends⟩

theorem areLinked_link : (r.link a b).AreLinked a' b' ↔
    r.AreLinked a' b' ∨ (a = a' ∧ b = b' ∨ a = b' ∧ b = a') := by
  constructor
  · rintro ⟨l, hl, hends⟩
    rw [link, List.mem_append, List.mem_singleton] at hl
    obtain hl | rfl := hl
    · exact .inl ⟨l, hl, hends⟩
    · exact .inr hends
  · rintro (⟨l, hl, hends⟩ | hends)
    · exact ⟨l, List.mem_append_left _ hl, hends⟩
    · exact ⟨(a, b), List.mem_append_right _ List.mem_cons_self, hends⟩

theorem areLinked_unlink : (r.unlink a b).AreLinked a' b' ↔
    r.AreLinked a' b' ∧ ¬ (a = a' ∧ b = b' ∨ a = b' ∧ b = a') := by
  constructor
  · rintro ⟨l, hl, hends⟩
    obtain ⟨hl, hother⟩ := List.mem_filter.mp hl
    refine ⟨⟨l, hl, hends⟩, fun hpair ↦ of_decide_eq_true hother ?_⟩
    obtain ⟨rfl, rfl⟩ | ⟨rfl, rfl⟩ := hends <;> obtain ⟨rfl, rfl⟩ | ⟨rfl, rfl⟩ := hpair <;> simp
  · rintro ⟨⟨l, hl, hends⟩, hother⟩
    refine ⟨l, List.mem_filter.mpr ⟨hl, decide_eq_true fun hpair ↦ hother ?_⟩, hends⟩
    obtain ⟨rfl, rfl⟩ | ⟨rfl, rfl⟩ := hends <;> obtain ⟨rfl, rfl⟩ | ⟨rfl, rfl⟩ := hpair <;> simp

theorem areLinked_depart :
    (r.depart peer).AreLinked a b ↔ r.AreLinked a b ∧ a ≠ peer ∧ b ≠ peer := by
  constructor
  · rintro ⟨l, hl, hends⟩
    obtain ⟨hl, hother⟩ := List.mem_filter.mp hl
    obtain ⟨hfirst, hsecond⟩ := of_decide_eq_true hother
    refine ⟨⟨l, hl, hends⟩, ?_⟩
    obtain ⟨rfl, rfl⟩ | ⟨rfl, rfl⟩ := hends
    · exact ⟨hfirst, hsecond⟩
    · exact ⟨hsecond, hfirst⟩
  · rintro ⟨⟨l, hl, hends⟩, ha, hb⟩
    refine ⟨l, List.mem_filter.mpr ⟨hl, decide_eq_true ?_⟩, hends⟩
    obtain ⟨rfl, rfl⟩ | ⟨rfl, rfl⟩ := hends
    · exact ⟨ha, hb⟩
    · exact ⟨hb, ha⟩

theorem mem_partners : b ∈ r.partners a ↔ r.AreLinked a b := by
  rw [partners, List.mem_filterMap]
  constructor
  · rintro ⟨l, hl, hends⟩
    split_ifs at hends with hfirst hsecond
    · exact ⟨l, hl, .inl ⟨hfirst, Option.some.inj hends⟩⟩
    · exact ⟨l, hl, .inr ⟨Option.some.inj hends, hsecond⟩⟩
  · rintro ⟨l, hl, ⟨rfl, rfl⟩ | ⟨rfl, rfl⟩⟩
    · exact ⟨l, hl, if_pos rfl⟩
    · refine ⟨l, hl, ?_⟩
      by_cases hsame : l.1 = l.2
      · rw [if_pos hsame, hsame]
      · rw [if_neg hsame, if_pos rfl]

end Roster

end PlayTogether

end SuperShuckie
