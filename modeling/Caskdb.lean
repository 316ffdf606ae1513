import Caskdb.Basic
import Caskdb.Util.Varint
import Caskdb.Util.Coding
import Caskdb.Sstable.BlockHandle
import Caskdb.Sstable.Footer
import Caskdb.Std.Str
import Caskdb.Std.Path
import Caskdb.Db.Filename
import Caskdb.Storage.Mem
import Caskdb.Storage.WriteString
import Caskdb.Db.Current
import Caskdb.Storage.ReadExact
