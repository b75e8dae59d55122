import IconCatalog.Enumeration.File
import IconCatalog.Proofs.Source.Body
/-!
The grammar of enumerations, which is accepted in the same way as that of lookup tables. The value
of a member belongs to its spelling only, so that a member is read as a name whatever its value is.
-/
namespace IconCatalog
open Text Source

namespace Enumeration

/-- The spelling `NAME = "VALUE"` of a member, with an optional comma behind it. -/
inductive IsMember : Text → Text → Prop where
  | mk : IsKey key name → IsGap v → IsGap w → quoted? value = some (content, []) → IsComma comma →
      IsMember (key ++ (v ++ '=' :: (w ++ (value ++ comma)))) name

theorem quoted?_append {t content : Text} (h : quoted? t = some (content, [])) (rest : Text) :
    quoted? (t ++ rest) = some (content, rest) := by
  obtain ⟨q, hq, ht, hcontent⟩ := quoted?_eq_some_iff.1 h
  exact quoted?_eq_some_iff.2 ⟨q, hq, by simp [ht], hcontent⟩

theorem exists_quoted {t content rest : Text} (h : quoted? t = some (content, rest)) :
    ∃ value, t = value ++ rest ∧ quoted? value = some (content, []) := by
  obtain ⟨q, hq, ht, hcontent⟩ := quoted?_eq_some_iff.1 h
  exact ⟨q :: (content ++ [q]), by simp [ht], quoted?_eq_some_iff.2 ⟨q, hq, rfl, hcontent⟩⟩

theorem head_quoted {t content rest : Text} (h : quoted? t = some (content, rest)) :
    ∀ c ∈ t.head?, isGap c = false := by
  obtain ⟨q, hq, rfl, -⟩ := quoted?_eq_some_iff.1 h
  intro c hc
  obtain rfl := Option.some.inj hc
  cases hq with
  | inl hq => rw [hq]; rfl
  | inr hq => rw [hq]; rfl

/-- The spelling of a member, with its value told beside its name. -/
inductive IsValued : Text → Text × Text → Prop where
  | mk : IsKey key name → IsGap v → IsGap w → quoted? value = some (content, []) → IsComma comma →
      IsValued (key ++ (v ++ '=' :: (w ++ (value ++ comma)))) (name, content)

theorem isMember_iff {s name : Text} : IsMember s name ↔ ∃ content, IsValued s (name, content) := by
  constructor
  · rintro ⟨hkey, hv, hw, hvalue, hcomma⟩
    exact ⟨_, .mk hkey hv hw hvalue hcomma⟩
  · rintro ⟨content, ⟨hkey, hv, hw, hvalue, hcomma⟩⟩
    exact .mk hkey hv hw hvalue hcomma

def valued? (t : Text) : Option ((Text × Text) × Text) := do
  let (name, t) ← key? t
  let t ← char? '=' (skipGap t)
  let (content, t) ← quoted? (skipGap t)
  some ((name, content), (char? ',' (skipGap t)).getD t)

theorem member?_eq (t : Text) : member? t = (valued? t).map fun m => (m.1.1, m.2) := by
  simp only [member?, valued?, Option.bind_eq_bind, Option.map_bind, Function.comp_def,
    Option.map_some]

def valuedMembers : ItemReader (Text × Text) where
  read? := valued?
  shortens := fun {t m r} h => length_of_member? (n := m.1) (by rw [member?_eq, h]; rfl)

theorem valuedMembers_reads : valuedMembers.Reads IsValued where
  start := fun {s m} h => by
    cases h with
    | mk hkey =>
      obtain ⟨c, hc, hstart⟩ := hkey.start
      refine ⟨c, ?_, hstart⟩
      rw [List.head?_append, Option.mem_def.1 hc]
      rfl
  sound := fun {t m r} h => by
    simp only [valuedMembers, valued?, Option.bind_eq_bind, Option.bind_eq_some_iff, Prod.exists,
      Option.some.injEq, Prod.mk.injEq] at h
    obtain ⟨name, t₁, h₁, t₂, h₂, content, t₃, h₃, rfl, rfl⟩ := h
    obtain ⟨key, ht, hkey⟩ := isKey_of_key? h₁
    obtain ⟨v, hv, ht₁⟩ := (char?_skipGap_iff (by decide)).1 h₂
    obtain ⟨w, hw, ht₂⟩ := exists_gap t₂
    obtain ⟨value, hvalue, hquoted⟩ := exists_quoted h₃
    obtain ⟨comma, hcomma, ht₃⟩ := exists_comma t₃
    refine ⟨_, ?_, .mk hkey hv hw hquoted hcomma⟩
    rw [ht, ht₁, ht₂, hvalue]
    simp only [List.append_assoc, List.cons_append, ← ht₃]
  complete := fun {s m rest} h hrest => by
    cases h with
    | @mk key name v w value content comma hkey hv hw hvalue hcomma =>
      have hhead := head_gap_append hv (show isNameChar '=' = false by decide)
        (w ++ (value ++ (comma ++ rest)))
      have hquoted := quoted?_append hvalue (comma ++ rest)
      have hskip : skipGap (w ++ (value ++ (comma ++ rest))) = value ++ (comma ++ rest) := by
        rw [skipGap_append hw, skipGap_of_head (head_quoted hquoted)]
      simp only [valuedMembers, valued?, Option.bind_eq_bind, Option.bind_eq_some_iff, Prod.exists,
        Option.some.injEq, Prod.mk.injEq, List.append_assoc, List.cons_append]
      exact ⟨name, _, hkey.key? hhead, _,
        (char?_skipGap_iff (by decide)).2 ⟨v, hv, rfl⟩, content, _,
        by rw [hskip, hquoted], ⟨rfl, rfl⟩, hcomma.skip hrest⟩

theorem members_reads : members.Reads IsMember where
  start := fun h => by
    obtain ⟨content, hvalued⟩ := isMember_iff.1 h
    exact valuedMembers_reads.start hvalued
  sound := fun {t name r} h => by
    obtain ⟨⟨⟨name, content⟩, r⟩, hvalued, hname⟩ :=
      Option.map_eq_some_iff.1 ((member?_eq t).symm.trans h)
    obtain ⟨rfl, rfl⟩ := Prod.mk.inj hname
    obtain ⟨s, ht, hs⟩ := valuedMembers_reads.sound hvalued
    exact ⟨s, ht, isMember_iff.2 ⟨content, hs⟩⟩
  complete := fun {s name rest} h hrest => by
    obtain ⟨content, hvalued⟩ := isMember_iff.1 h
    have hread : valued? (s ++ rest) = some ((name, content), rest) :=
      valuedMembers_reads.complete hvalued hrest
    exact (member?_eq _).trans (by rw [hread]; rfl)

end Enumeration

namespace EnumFile
open Enumeration
variable {category : Category}

theorem exists_body_of_read {source : Text} {f : EnumFile} (h : read category source = .ok f) :
    ∃ header b rest, occurrences (Enumeration.header category) source = [header] ∧
      source.drop header.stop = b ++ '\x7d' :: rest ∧
      IsBody IsMember ('\x7d' :: rest) b f.members ∧ f.category = category ∧
      f.head = source.take header.stop ∧ f.tail = '\x7d' :: rest ∧
      f.layout = .detect source b isMemberLine := by
  obtain ⟨found, hfind, h⟩ := bind_eq_ok_iff.1 h
  obtain rfl := Except.ok.inj h
  obtain ⟨header, rest, hheader, htail, hhead, hsource, hbody⟩ :=
    Declaration.exists_of_find members_reads hfind
  exact ⟨header, found.body, rest, hheader, hsource, hbody, rfl, hhead, htail, rfl⟩

end EnumFile
end IconCatalog
