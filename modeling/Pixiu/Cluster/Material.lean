import Pixiu.Base.Terminated
import Pixiu.Cluster.Endpoint

/-!
# The material of endpoint IDs

`GenerateEndpointID` hashes four texts: the name of the cluster, the address, and the provider and
the key of the LLM.  `endpointIDMaterial` writes each of them with a tag, its length in bytes, the
text and a line end, so that a text may hold colons, line ends and whatever looks like the next
field.

A field can be read back because its length is read first: the digits end at the first colon, and
two texts of one length that begin the same string are the same (`field_append_inj`).  Hence the
material determines the four texts, and two IDs are the same only for the same texts or by a
collision of the hash (`material_determines`).
-/

namespace Pixiu.Cluster

/-- The text that an endpoint contributes for its address. -/
def idAddress (endpoint : Option Endpoint) : String := (endpoint.map (·.address.getAddress)).getD ""

/-- The text that an endpoint contributes for the provider of its LLM. -/
def idProvider (endpoint : Option Endpoint) : String :=
  ((endpoint.bind (·.llmMeta)).map (·.provider)).getD ""

/-- The text that an endpoint contributes for the key of its LLM. -/
def idAPIKey (endpoint : Option Endpoint) : String :=
  ((endpoint.bind (·.llmMeta)).map (·.apiKey)).getD ""

/-- Cluster name, address, provider and key agree. -/
structure SameIdentity (clusterName clusterName' : String) (endpoint endpoint' : Option Endpoint) :
    Prop where
  cluster : clusterName = clusterName'
  address : idAddress endpoint = idAddress endpoint'
  provider : idProvider endpoint = idProvider endpoint'
  apiKey : idAPIKey endpoint = idAPIKey endpoint'

/-- The fields of the material, one after another. -/
theorem endpointIDMaterial_eq (clusterName : String) (endpoint : Option Endpoint) :
    endpointIDMaterial clusterName endpoint =
      endpointIDMaterialField "cluster" clusterName ++
        (endpointIDMaterialField "address" (idAddress endpoint) ++
        (endpointIDMaterialField "llm_provider" (idProvider endpoint) ++
          (endpointIDMaterialField "llm_api_key" (idAPIKey endpoint) ++ ""))) := by
  simp only [endpointIDMaterial, idAddress, idProvider, idAPIKey, String.append_assoc,
    String.append_empty]

theorem colon_notMem_digits (n : ℕ) : ':' ∉ (toString n).toList := by
  intro h
  have hdigits : (toString n).toList = Nat.toDigits 10 n := String.toList_ofList
  rw [hdigits] at h
  have hdigit := Nat.isDigit_of_mem_toDigits (by decide) (by decide) h
  simp at hdigit

/-- Numbers up to a colon are read back. -/
theorem number_append_inj {m n : ℕ} {r s : String}
    (h : toString m ++ (":" ++ r) = toString n ++ (":" ++ s)) :
    m = n ∧ r = s := by
  have hlist := congrArg String.toList h
  simp only [String.toList_append] at hlist
  obtain ⟨hnumber, hrest⟩ := append_sep_inj (colon_notMem_digits m) (colon_notMem_digits n) hlist
  exact ⟨Nat.repr_injective (String.toList_inj.1 hnumber), String.toList_inj.1 hrest⟩

/-- Of one string, the beginnings of one size are the same. -/
theorem append_inj_of_size {a b r s : String} (hsize : a.utf8ByteSize = b.utf8ByteSize)
    (h : a ++ r = b ++ s) :
    a = b ∧ r = s := by
  have hbytes := congrArg String.toByteArray h
  rw [String.toByteArray_append, String.toByteArray_append] at hbytes
  obtain rfl : a = b := String.toByteArray_inj.1 (ByteArray.append_inj_left hbytes hsize)
  exact ⟨rfl, (String.append_right_inj a).1 h⟩

/-- A field is read back, whatever stands in it and after it. -/
theorem field_append_inj (name : String) {v w r s : String}
    (h : endpointIDMaterialField name v ++ r = endpointIDMaterialField name w ++ s) :
    v = w ∧ r = s := by
  simp only [endpointIDMaterialField, String.append_assoc] at h
  have hnumber := (String.append_right_inj _).1 ((String.append_right_inj _).1 h)
  obtain ⟨hsize, htext⟩ := number_append_inj hnumber
  obtain ⟨rfl, hend⟩ := append_inj_of_size hsize htext
  exact ⟨rfl, (String.append_right_inj _).1 hend⟩

theorem endpointIDMaterial_inj {clusterName clusterName' : String}
    {endpoint endpoint' : Option Endpoint} :
    endpointIDMaterial clusterName endpoint = endpointIDMaterial clusterName' endpoint' ↔
      SameIdentity clusterName clusterName' endpoint endpoint' := by
  rw [endpointIDMaterial_eq, endpointIDMaterial_eq]
  constructor
  · intro h
    -- the fields come off one by one, in the order in which they were written
    obtain ⟨hcluster, h⟩ := field_append_inj "cluster" h
    obtain ⟨haddress, h⟩ := field_append_inj "address" h
    obtain ⟨hprovider, h⟩ := field_append_inj "llm_provider" h
    obtain ⟨hkey, -⟩ := field_append_inj "llm_api_key" h
    exact ⟨hcluster, haddress, hprovider, hkey⟩
  · rintro ⟨rfl, haddress, hprovider, hkey⟩
    rw [haddress, hprovider, hkey]

/-- Generated IDs are the same exactly if the hash is. -/
theorem generateEndpointID_eq_iff (sum : String → String) {clusterName clusterName' : String}
    {endpoint endpoint' : Option Endpoint} :
    generateEndpointID sum clusterName endpoint = generateEndpointID sum clusterName' endpoint' ↔
      sum (endpointIDMaterial clusterName endpoint) =
        sum (endpointIDMaterial clusterName' endpoint') :=
  String.append_right_inj _

/-- **The material determines what it is made from**, and two generated IDs are the same only for
the same identity or by a collision of the hash. -/
theorem material_determines (sum : String → String) (clusterName clusterName' : String)
    (endpoint endpoint' : Option Endpoint) :
    (endpointIDMaterial clusterName endpoint = endpointIDMaterial clusterName' endpoint' ↔
      SameIdentity clusterName clusterName' endpoint endpoint') ∧
    (generateEndpointID sum clusterName endpoint = generateEndpointID sum clusterName' endpoint' ↔
      SameIdentity clusterName clusterName' endpoint endpoint' ∨
        (endpointIDMaterial clusterName endpoint ≠ endpointIDMaterial clusterName' endpoint' ∧
          sum (endpointIDMaterial clusterName endpoint) =
            sum (endpointIDMaterial clusterName' endpoint'))) := by
  refine ⟨endpointIDMaterial_inj, ?_⟩
  rw [generateEndpointID_eq_iff]
  constructor
  · intro hsum
    by_cases hmaterial : endpointIDMaterial clusterName endpoint =
      endpointIDMaterial clusterName' endpoint'
    · exact .inl (endpointIDMaterial_inj.1 hmaterial)
    · exact .inr ⟨hmaterial, hsum⟩
  · rintro (hsame | ⟨-, hsum⟩)
    · rw [endpointIDMaterial_inj.2 hsame]
    · exact hsum

end Pixiu.Cluster
