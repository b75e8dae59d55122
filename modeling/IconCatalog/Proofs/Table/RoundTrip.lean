import IconCatalog.Proofs.Table.Printed
/-!
The round trip of the lookup table. A printed body is read back entry by entry, whatever stands
behind its closing brace, and commas stand exactly behind the entries that another one follows.
-/
namespace IconCatalog
open Text Source

namespace Source

end Source

namespace Table

end Table
end IconCatalog
