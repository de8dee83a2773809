import EdonPlatform.Common.Python

/- Ids that are digests of texts. That digests do not collide is asked of the texts that a run
   hashes, never of all texts: an id keeps twenty digits, so no function has it for all. -/
namespace Edon

/-- No two of the texts have the same digest. -/
def CollisionFree {α : Type} (digest : String → α) (texts : List String) : Prop :=
  ∀ t ∈ texts, ∀ u ∈ texts, digest t = digest u → t = u

instance {α : Type} [DecidableEq α] (digest : String → α) (texts : List String) :
    Decidable (CollisionFree digest texts) :=
  inferInstanceAs (Decidable (∀ t ∈ texts, ∀ u ∈ texts, _))

theorem CollisionFree.subset {α : Type} {digest : String → α} {texts texts' : List String}
    (h : CollisionFree digest texts) (hsubset : texts' ⊆ texts) : CollisionFree digest texts' :=
  fun t ht u hu => h t (hsubset ht) u (hsubset hu)

/-- What an id keeps of the digest of a text. -/
def shortDigest (py : Python) (text : String) : List Char := (py.sha256 text).toList.take 20

theorem shortSha256_eq (py : Python) (value : Json) :
    shortSha256 py value = String.ofList (shortDigest py (Json.canonicalJson value)) := rfl

end Edon
