import LachainTarget.Bytes
import LachainTarget.Memory
import LachainTarget.Machine
import LachainTarget.Host
import LachainTarget.Storage
import LachainTarget.StorageRun
import LachainTarget.Encode
import LachainTarget.Calls
import LachainTarget.Body
import LachainTarget.Builtins
import LachainTarget.Dispatch
